import I40Aas.EndpointRegistry.Entities

/-!
The credentials of an endpoint. User and password are stored encrypted, each
behind a salt that stands in the row beside them and a dot; one salt serves both.
AES and the random numbers come from libraries: of AES the code relies on
`decrypt` undoing `encrypt`, of `csprng` on a salt not being empty.

`Sealed` says what the encryption of an endpoint does to each credential, and
`Sealed.reads` what is read once it has been saved.
-/

namespace I40Aas.EndpointRegistry

open I40Aas.Lib

/-- `cryptojs.AES` under the key of the registry. `encrypt` draws a random salt of
its own, the first argument here. -/
structure Aes where
  encrypt : String → String → String
  decrypt : String → String
  decrypt_encrypt : ∀ random text, decrypt (encrypt random text) = text
  encrypt_ne_empty : ∀ random text, encrypt random text ≠ ""

/-- What `csprng` returns. -/
abbrev Salt := { salt : String // salt ≠ "" }

/-- The random values an endpoint is stored with. -/
structure Random where
  salt : Salt
  user : String
  password : String

/-- `if (!salt) salt = fresh`. -/
def saltOr (salt : Field) (fresh : Salt) : Salt :=
  match salt with
  | .string value => if h : value = "" then fresh else ⟨value, h⟩
  | _ => fresh

/-- A new salt for the endpoint, and the salted user encrypted. -/
def IEndpoint.encryptUser (aes : Aes) (random : Random) (e : IEndpoint) : IEndpoint :=
  match e.user with
  | .string user =>
      if user = "" then e
      else
        { e with
          salt := .string random.salt.1
          user := .string (aes.encrypt random.user (random.salt.1 ++ "." ++ user)) }
  | _ => e

/-- The salted password encrypted, under a new salt if there is none yet. -/
def IEndpoint.encryptPassword (aes : Aes) (random : Random) (e : IEndpoint) : IEndpoint :=
  match e.password with
  | .string password =>
      if password = "" then e
      else
        let salt := saltOr e.salt random.salt
        { e with
          salt := .string salt.1
          password := .string (aes.encrypt random.password (salt.1 ++ "." ++ password)) }
  | _ => e

def IEndpoint.encryptCredentials (aes : Aes) (random : Random) (e : IEndpoint) : IEndpoint :=
  (e.encryptUser aes random).encryptPassword aes random

def encryptEndpoints (aes : Aes) (random : ℕ → Random) (endpoints : List IEndpoint) :
    List IEndpoint :=
  endpoints.zipIdx.map fun p => p.1.encryptCredentials aes (random p.2)

/-- Take the first occurrence of the pattern out of the text. -/
def removeFirst (pattern : List Char) : List Char → List Char
  | [] => []
  | c :: text =>
      if pattern.isPrefixOf (c :: text) then (c :: text).drop pattern.length
      else c :: removeFirst pattern text

/-- `text.replace(pattern, '')` for a pattern that is not empty. -/
def replaceFirst (text pattern : String) : String :=
  String.ofList (removeFirst pattern.toList text.toList)

/-- A credential as it is read: decrypted if both it and the salt count as true. -/
def readCredential (aes : Aes) (salt column : Option String) : Option String :=
  match column, salt with
  | some credential, some salt =>
      if credential = "" ∨ salt = "" then some credential
      else some (replaceFirst (aes.decrypt credential) (salt ++ "."))
  | column, _ => column

/-! ### Reading what was sealed -/

theorem removeFirst_append {pattern : List Char} (h : pattern ≠ []) (text : List Char) :
    removeFirst pattern (pattern ++ text) = text := by
  cases pattern with
  | nil => exact absurd rfl h
  | cons c pattern =>
      have hprefix : (c :: pattern).isPrefixOf (c :: (pattern ++ text)) = true := by
        rw [← List.cons_append, List.isPrefixOf_iff_prefix]
        exact List.prefix_append _ _
      rw [List.cons_append, removeFirst, if_pos hprefix, ← List.cons_append, List.drop_left]

theorem replaceFirst_salted (salt text : String) :
    replaceFirst (salt ++ "." ++ text) (salt ++ ".") = text := by
  have hne : (salt ++ ".").toList ≠ [] := by simp
  rw [replaceFirst, @String.toList_append (salt ++ "."), removeFirst_append hne,
    String.ofList_toList]

/-- `stored` is what the encryption makes of the credential `given`, under the
salt property `salt`. -/
inductive Sealed (aes : Aes) (salt : Field) : Field → Field → Prop
  | undefined : Sealed aes salt .undefined .undefined
  | null : Sealed aes salt .null .null
  | empty : Sealed aes salt (.string "") (.string "")
  | encrypted {text random value : String} : text ≠ "" → value ≠ "" → salt = .string value →
      Sealed aes salt (.string text) (.string (aes.encrypt random (value ++ "." ++ text)))

/-- The salt property an endpoint is saved with. -/
def IEndpoint.newSalt (random : Random) (e : IEndpoint) : Field :=
  if e.user.truthy then .string random.salt.1
  else if e.password.truthy then .string (saltOr e.salt random.salt).1
  else e.salt

theorem Sealed.of_not_truthy {aes : Aes} {f : Field} (h : f.truthy = false) (salt : Field) :
    Sealed aes salt f f := by
  cases f with
  | undefined => exact .undefined
  | null => exact .null
  | string value =>
      obtain rfl : value = "" := by simpa [Field.truthy] using h
      exact .empty

theorem saltOr_string (salt fresh : Salt) : saltOr (.string salt.1) fresh = salt := by
  simp [saltOr, salt.2]

section Encrypt

variable (aes : Aes) (random : Random) {e : IEndpoint}

theorem IEndpoint.encryptUser_of_truthy {user : String} (h : e.user = .string user)
    (hne : user ≠ "") : e.encryptUser aes random =
      { e with
        salt := .string random.salt.1
        user := .string (aes.encrypt random.user (random.salt.1 ++ "." ++ user)) } := by
  simp only [IEndpoint.encryptUser, h, if_neg hne]

theorem IEndpoint.encryptUser_of_not_truthy (h : ¬ e.user.truthy = true) :
    e.encryptUser aes random = e := by
  unfold IEndpoint.encryptUser
  split
  · rename_i user huser
    rw [if_pos (by simpa [Field.truthy, huser] using h)]
  · rfl

theorem IEndpoint.encryptPassword_of_truthy {password : String} (h : e.password = .string password)
    (hne : password ≠ "") : e.encryptPassword aes random =
      { e with
        salt := .string (saltOr e.salt random.salt).1
        password := .string (aes.encrypt random.password
          ((saltOr e.salt random.salt).1 ++ "." ++ password)) } := by
  simp only [IEndpoint.encryptPassword, h, if_neg hne]

theorem IEndpoint.encryptPassword_of_not_truthy (h : ¬ e.password.truthy = true) :
    e.encryptPassword aes random = e := by
  unfold IEndpoint.encryptPassword
  split
  · rename_i password hpassword
    rw [if_pos (by simpa [Field.truthy, hpassword] using h)]
  · rfl

/-- Both credentials end up sealed under the one salt the endpoint is saved with,
and nothing else changes. -/
theorem IEndpoint.encryptCredentials_spec (e : IEndpoint) :
    ∃ user password, Sealed aes (e.newSalt random) e.user user ∧
      Sealed aes (e.newSalt random) e.password password ∧
      e.encryptCredentials aes random =
        { e with salt := e.newSalt random, user := user, password := password } := by
  unfold IEndpoint.encryptCredentials IEndpoint.newSalt
  by_cases huser : e.user.truthy = true
  · obtain ⟨user, hu, hune⟩ := Field.exists_of_truthy huser
    have hstored := IEndpoint.encryptUser_of_truthy aes random hu hune
    rw [if_pos huser]
    have hsealed : Sealed aes (.string random.salt.1) e.user
        (.string (aes.encrypt random.user (random.salt.1 ++ "." ++ user))) := by
      rw [hu]
      exact .encrypted hune random.salt.2 rfl
    have hsame : (e.encryptUser aes random).password = e.password := by rw [hstored]
    by_cases hpassword : e.password.truthy = true
    · -- the password is sealed under the new salt of the user
      obtain ⟨password, hp, hpne⟩ := Field.exists_of_truthy hpassword
      rw [IEndpoint.encryptPassword_of_truthy aes random (hsame.trans hp) hpne, hstored,
        saltOr_string]
      refine ⟨_, _, hsealed, ?_, rfl⟩
      rw [hp]
      exact .encrypted hpne random.salt.2 rfl
    · rw [IEndpoint.encryptPassword_of_not_truthy aes random (by rwa [hsame]), hstored]
      exact ⟨_, _, hsealed, .of_not_truthy (by simpa using hpassword) _, rfl⟩
  · rw [if_neg huser, IEndpoint.encryptUser_of_not_truthy aes random huser]
    have hsealed : ∀ salt, Sealed aes salt e.user e.user :=
      .of_not_truthy (by simpa using huser)
    by_cases hpassword : e.password.truthy = true
    · obtain ⟨password, hp, hpne⟩ := Field.exists_of_truthy hpassword
      rw [if_pos hpassword, IEndpoint.encryptPassword_of_truthy aes random hp hpne]
      refine ⟨_, _, hsealed _, ?_, rfl⟩
      rw [hp]
      exact .encrypted hpne (saltOr e.salt random.salt).2 rfl
    · rw [if_neg hpassword, IEndpoint.encryptPassword_of_not_truthy aes random hpassword]
      exact ⟨_, _, hsealed _, .of_not_truthy (by simpa using hpassword) _, rfl⟩

/-- What a credential is stored as under the salt of its endpoint. -/
def storedCredential (aes : Aes) (random : String) (salt given : Field) : Field :=
  match given, salt with
  | .string text, .string value =>
      if text = "" then given else .string (aes.encrypt random (value ++ "." ++ text))
  | _, _ => given

theorem storedCredential_of_not_truthy {given : Field} (h : given.truthy = false)
    (random : String) (salt : Field) : storedCredential aes random salt given = given := by
  cases given with
  | undefined => rfl
  | null => rfl
  | string text =>
      obtain rfl : text = "" := by simpa [Field.truthy] using h
      cases salt <;> rfl

/-- The spec with the random values that the ciphertexts are made with. -/
theorem IEndpoint.encryptCredentials_eq (e : IEndpoint) : e.encryptCredentials aes random =
    { e with
      salt := e.newSalt random
      user := storedCredential aes random.user (e.newSalt random) e.user
      password := storedCredential aes random.password (e.newSalt random) e.password } := by
  unfold IEndpoint.encryptCredentials IEndpoint.newSalt
  by_cases huser : e.user.truthy = true
  · obtain ⟨user, hu, hune⟩ := Field.exists_of_truthy huser
    have hstored := IEndpoint.encryptUser_of_truthy aes random hu hune
    have hsame : (e.encryptUser aes random).password = e.password := by rw [hstored]
    rw [if_pos huser]
    by_cases hpassword : e.password.truthy = true
    · obtain ⟨password, hp, hpne⟩ := Field.exists_of_truthy hpassword
      rw [IEndpoint.encryptPassword_of_truthy aes random (hsame.trans hp) hpne, hstored,
        saltOr_string]
      simp [storedCredential, hu, hune, hp, hpne]
    · have hplain : e.password.truthy = false := by simpa using hpassword
      rw [IEndpoint.encryptPassword_of_not_truthy aes random (by rwa [hsame]), hstored,
        storedCredential_of_not_truthy aes hplain]
      simp [storedCredential, hu, hune]
  · have hplain : e.user.truthy = false := by simpa using huser
    rw [if_neg huser, IEndpoint.encryptUser_of_not_truthy aes random huser,
      storedCredential_of_not_truthy aes hplain]
    by_cases hpassword : e.password.truthy = true
    · obtain ⟨password, hp, hpne⟩ := Field.exists_of_truthy hpassword
      rw [if_pos hpassword, IEndpoint.encryptPassword_of_truthy aes random hp hpne]
      simp [storedCredential, hp, hpne]
    · have hplain : e.password.truthy = false := by simpa using hpassword
      rw [if_neg hpassword, IEndpoint.encryptPassword_of_not_truthy aes random hpassword,
        storedCredential_of_not_truthy aes hplain]

end Encrypt

section Read

variable {aes : Aes} {salt given stored : Field}

/-- A credential that is not in the request is read from the old column under the
salt the row has now; any other one is read as it was given. -/
theorem Sealed.reads (h : Sealed aes salt given stored) (oldSalt old : Option String) :
    readCredential aes (salt.assign oldSalt) (stored.assign old) =
      if given = .undefined then readCredential aes (salt.assign oldSalt) old
      else given.assign none := by
  cases h with
  | undefined => rfl
  | null => simp [readCredential]
  | empty => cases hsalt : salt.assign oldSalt <;> simp [readCredential]
  | encrypted htext hvalue hsalt =>
      subst hsalt
      simp [readCredential, aes.encrypt_ne_empty, hvalue, aes.decrypt_encrypt,
        replaceFirst_salted]

/-- An unencrypted column is read as it is. -/
theorem readCredential_of_not_encrypted {salt column : Option String}
    (h : ∀ credential, column = some credential → credential = "") :
    readCredential aes salt column = column := by
  cases column with
  | none => rfl
  | some credential =>
      obtain rfl := h credential rfl
      cases salt <;> simp [readCredential]

end Read

end I40Aas.EndpointRegistry
