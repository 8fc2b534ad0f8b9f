import I40Aas.EndpointRegistry.ProtocolReadings
import I40Aas.EndpointRegistry.SemanticProtocols
import I40Aas.Lib.ClientServer
import I40Aas.RegistryUi.Deletion

/-!
The page that creates a semantic protocol, together with the registry it loads the descriptors
from and sends the protocol to. The buttons and the checks keep the roles apart only together
(`okEvent`): then a protocol is created exactly if its id is free and its descriptors are still
registered, and each of these was when it was selected.
-/

namespace I40Aas.RegistryUi.CreateSemanticProtocol

open I40Aas.Lib I40Aas.EndpointRegistry

/-- `models` counts the models that were set for what is loaded, of which the ids are read. The
input of the id is bound to the model, the one of the role name is not. A protocol without
roles is loaded as an object without an id. -/
structure Page where
  models : ℕ
  aasDescriptors : List String
  semanticProtocols : List (Option String)
  data : SemanticProtocol Role
  roleName : String
  dropdowns : List Dropdown
  spIdError : Bool
  roleNameError : Bool
  addRoleEnabled : Bool
  createEnabled : Bool

inductive Request
  | getAASDescriptors (model : ℕ)
  | getSemanticProtocols (model : ℕ)
  | putSemanticProtocol (body : SemanticProtocol Role)

/-- What was loaded for a model, or whether the protocol was created. -/
inductive Answer
  | aasDescriptors (model : ℕ) (loaded : List String)
  | semanticProtocols (model : ℕ) (loaded : List (Option String))
  | notLoaded
  | created (ok : Bool)

/-! ### The controller -/

def initialData : SemanticProtocol Role where
  identification := ⟨"", "IRI"⟩
  roles := []

def initiateModel (page : Page) : Page × List Request :=
  ({ page with
      models := page.models + 1
      aasDescriptors := []
      semanticProtocols := []
      data := initialData },
    [.getAASDescriptors (page.models + 1), .getSemanticProtocols (page.models + 1)])

/-- Reading the id of a protocol that has none throws. -/
def spIdDuplicate (spId : String) : List (Option String) → Option Bool
  | [] => some false
  | none :: _ => none
  | some id :: rest => if spId = id then some true else spIdDuplicate spId rest

def roleNameDuplicate (roles : List Role) (roleName : String) : Bool :=
  roles.any fun role => roleName = role.name

def checkCreateButton (page : Page) : Page := { page with createEnabled := !page.spIdError }

def checkAddRoleButton (page : Page) : Page := { page with addRoleEnabled := !page.roleNameError }

inductive Input
  | inputSpId
  | inputRoleName

/-- Where the check of the id throws, the buttons are not checked any more. -/
def onLiveChange (newValue : String) (page : Page) : Input → Page
  | .inputSpId =>
      match spIdDuplicate newValue page.semanticProtocols with
      | none => { page with spIdError := newValue = "", createEnabled := true }
      | some duplicate => checkAddRoleButton (checkCreateButton
          { page with spIdError := newValue = "" || duplicate })
  | .inputRoleName => checkAddRoleButton (checkCreateButton
      { page with roleNameError := newValue = "" || roleNameDuplicate page.data.roles newValue })

/-- The button is enabled whatever the role name is. -/
def onSelect (i : ℕ) (text : String) (page : Page) : Page :=
  { page with
    dropdowns := page.dropdowns.set i (some text)
    addRoleEnabled := true }

def onAddDescriptorDropdown (page : Page) : Page :=
  { page with dropdowns := page.dropdowns ++ [none] }

/-- The last dropdown stays. -/
def onDeleteCcMail (i : ℕ) (page : Page) : Page :=
  if 1 < page.dropdowns.length then { page with dropdowns := page.dropdowns.eraseIdx i } else page

/-- All dropdowns are destroyed and one is added. -/
def resetDescriptorDropdown (page : Page) : Page := { page with dropdowns := [none] }

def onAddRolePress (page : Page) : Page :=
  match onAddRole page.roleName page.dropdowns page.data.roles with
  | some .cantBeEmpty => checkAddRoleButton { page with roleNameError := true }
  | some (.roleCreated roles) =>
      { resetDescriptorDropdown page with
        data := { page.data with roles := roles }
        roleName := "" }
  | some .descriptorDuplicateOrEmpty | none => page

def onDeleteRolePress (i : ℕ) (page : Page) : Page :=
  { page with data := onDeleteRoleObject (rowPath "/roles".toList i) page.data }

def onCreatePress (page : Page) : Page × List Request :=
  match onCreateSemanticProtocol page.data.identification.id page.data with
  | .put _ body => (page, [.putSemanticProtocol body])
  | .cantBeEmpty => (checkCreateButton { page with spIdError := true }, [])
  | .noRoleAdded | .roleMandatory => (page, [])

def resetScreenToInitial (page : Page) : Page × List Request :=
  let (page, sent) := initiateModel (resetDescriptorDropdown { page with roleName := "" })
  (checkAddRoleButton (checkCreateButton
    { page with
      spIdError := false
      roleNameError := false }), sent)

/-- `deselect`: the items of a dropdown are bound anew, and what was selected is not. -/
inductive Event
  | afterShow
  | spId (value : String)
  | idType (key : String)
  | roleName (value : String)
  | addDescriptorDropdown
  | deleteDescriptorDropdown (i : ℕ)
  | select (i : ℕ) (text : String)
  | deselect (i : ℕ)
  | addRole
  | deleteRole (i : ℕ)
  | create
  | cancel

/-- A button that is not enabled cannot be pressed, and only loaded descriptors can be
selected. -/
def event (page : Page) : Event → Option (Page × List Request)
  | .afterShow => some (initiateModel page)
  | .spId value =>
      let identification := { page.data.identification with id := value }
      let data := { page.data with identification := identification }
      some (onLiveChange value { page with data := data } .inputSpId, [])
  | .idType key =>
      let identification := { page.data.identification with idType := key }
      some ({ page with data := { page.data with identification := identification } }, [])
  | .roleName value => some (onLiveChange value { page with roleName := value } .inputRoleName, [])
  | .addDescriptorDropdown => some (onAddDescriptorDropdown page, [])
  | .deleteDescriptorDropdown i => some (onDeleteCcMail i page, [])
  | .select i text =>
      if text ∈ page.aasDescriptors then some (onSelect i text page, []) else none
  | .deselect i => some ({ page with dropdowns := page.dropdowns.set i none }, [])
  | .addRole => if page.addRoleEnabled then some (onAddRolePress page, []) else none
  | .deleteRole i =>
      if i < page.data.roles.length then some (onDeleteRolePress i page, []) else none
  | .create => if page.createEnabled then some (onCreatePress page) else none
  | .cancel => some (resetScreenToInitial page)

/-- What is loaded for a model that was replaced meanwhile is not shown. -/
def receive (page : Page) : Answer → Page × List Request
  | .aasDescriptors model loaded =>
      if model = page.models then ({ page with aasDescriptors := loaded }, []) else (page, [])
  | .semanticProtocols model loaded =>
      if model = page.models then ({ page with semanticProtocols := loaded }, []) else (page, [])
  | .notLoaded => (page, [])
  | .created ok => if ok then resetScreenToInitial page else (page, [])

/-! ### The registry -/

/-- The ids of the descriptors come without a type, which is not read. -/
def body (data : SemanticProtocol Role) : ISemanticProtocol where
  identification := ⟨data.identification.id, data.identification.idType⟩
  roles := data.roles.map fun role => ⟨role.name, role.aasDescriptorIds.map fun id => ⟨id, ""⟩⟩

def handle (aes : Aes) (env : CallEnv) (db : Db) : Request → Db × Answer
  | .getAASDescriptors model =>
      match listAllAASDescriptors aes db with
      | .ok ds => (db, .aasDescriptors model (ds.map (·.identification.id)))
      | .error _ => (db, .notLoaded)
  | .getSemanticProtocols model =>
      match listAllSemanticProtocols db with
      | .ok protocols =>
          (db, .semanticProtocols model (protocols.map fun p => p.map (·.identification.id)))
      | .error _ => (db, .notLoaded)
  | .putSemanticProtocol data =>
      ((createSemanticProtocol env db (body data)).2,
        .created (createSemanticProtocol env db (body data)).1.isOk)

/-- The page, the registry and what the others call there. -/
def session (aes : Aes) : ClientServer Db Call CallEnv Page Event Request Answer where
  call db call := call.run aes db
  handle := handle aes
  event := event
  receive := receive

def blankPage : Page where
  models := 0
  aasDescriptors := []
  semanticProtocols := []
  data := initialData
  roleName := ""
  dropdowns := [none]
  spIdError := false
  roleNameError := false
  addRoleEnabled := true
  createEnabled := true

/-- The page when it is shown first. -/
def onShown (db : Db) : ClientServer.State Db Page Request Answer where
  server := db
  client := (initiateModel blankPage).1
  requests := (initiateModel blankPage).2
  answers := []

/-- A role is added while its name is not marked as an error, and the check of the dropdowns
misses nothing. -/
def okEvent (page : Page) : Event → Prop
  | .addRole => page.roleNameError = false ∧
      (aasDescriptorDuplicateOrEmpty page.dropdowns = some false → page.dropdowns.Nodup)
  | _ => True

instance (page : Page) : ∀ e, Decidable (okEvent page e)
  | .addRole => inferInstanceAs (Decidable (_ ∧ _))
  | .afterShow | .spId _ | .idType _ | .roleName _ | .addDescriptorDropdown
  | .deleteDescriptorDropdown _ | .select _ _ | .deselect _ | .deleteRole _ | .create
  | .cancel => .isTrue trivial

/-! ### What the page keeps -/

/-- A descriptor that is registered, unless it is one of those that may go. -/
def Registered (gone : String → Prop) (db : Db) (id : String) : Prop :=
  id ∈ db.aasDescriptors.keys ∨ gone id

/-- The roles of a protocol that can be created. -/
structure SoundRoles (gone : String → Prop) (db : Db) (roles : List Role) : Prop where
  names : (roles.map (·.name)).Nodup
  named : ∀ role ∈ roles, role.name ≠ ""
  assigned : ∀ role ∈ roles, role.aasDescriptorIds ≠ []
  once : ∀ role ∈ roles, role.aasDescriptorIds.Nodup
  registered : ∀ role ∈ roles, ∀ id ∈ role.aasDescriptorIds, Registered gone db id

structure Validated (gone : String → Prop) (db : Db) (page : Page) : Prop where
  roles : SoundRoles gone db page.data.roles
  fresh : page.roleNameError = false → page.roleName ∉ page.data.roles.map (·.name)
  dropdowns : page.dropdowns ≠ []
  selected : ∀ text, some text ∈ page.dropdowns → Registered gone db text
  loaded : ∀ id ∈ page.aasDescriptors, Registered gone db id

/-- A protocol that is sent. -/
structure Submittable (gone : String → Prop) (db : Db) (data : SemanticProtocol Role) : Prop where
  spId : data.identification.id ≠ ""
  roleAdded : data.roles ≠ []
  roles : SoundRoles gone db data.roles

section

variable {gone : String → Prop} {db : Db} {page : Page} {roles : List Role}

theorem SoundRoles.nil : SoundRoles gone db [] :=
  ⟨List.nodup_nil, by simp, by simp, by simp, by simp⟩

theorem SoundRoles.sublist {roles' : List Role} (h : SoundRoles gone db roles)
    (hsub : roles'.Sublist roles) : SoundRoles gone db roles' where
  names := h.names.sublist (hsub.map _)
  named role hrole := h.named role (hsub.subset hrole)
  assigned role hrole := h.assigned role (hsub.subset hrole)
  once role hrole := h.once role (hsub.subset hrole)
  registered role hrole := h.registered role (hsub.subset hrole)

theorem SoundRoles.append {role : Role} (h : SoundRoles gone db roles)
    (hfresh : role.name ∉ roles.map (·.name)) (hnamed : role.name ≠ "")
    (hassigned : role.aasDescriptorIds ≠ []) (honce : role.aasDescriptorIds.Nodup)
    (hregistered : ∀ id ∈ role.aasDescriptorIds, Registered gone db id) :
    SoundRoles gone db (roles ++ [role]) := by
  have hmem : ∀ other ∈ roles ++ [role], other ∈ roles ∨ other = role := by
    intro other hother
    simpa using hother
  refine ⟨?_, fun other hother => ?_, fun other hother => ?_, fun other hother => ?_,
    fun other hother => ?_⟩
  · rw [List.map_append, List.nodup_append']
    refine ⟨h.names, List.nodup_singleton _, ?_⟩
    intro name hname hnew
    rw [List.mem_singleton.mp hnew] at hname
    exact hfresh hname
  · rcases hmem other hother with hold | rfl
    · exact h.named other hold
    · exact hnamed
  · rcases hmem other hother with hold | rfl
    · exact h.assigned other hold
    · exact hassigned
  · rcases hmem other hother with hold | rfl
    · exact h.once other hold
    · exact honce
  · rcases hmem other hother with hold | rfl
    · exact h.registered other hold
    · exact hregistered

theorem roleNameDuplicate_eq_false {roleName : String} :
    roleNameDuplicate roles roleName = false ↔ roleName ∉ roles.map (·.name) := by
  rw [roleNameDuplicate, List.any_eq_false, List.mem_map]
  simp only [decide_eq_true_iff]
  constructor
  · rintro h ⟨role, hrole, rfl⟩
    exact h role hrole rfl
  · rintro h role hrole rfl
    exact h ⟨role, hrole, rfl⟩

/-- Adding a role only looks at what makes it sound. -/
theorem of_roleCreated {roleName : String} {dropdowns : List Dropdown} {roles' : List Role}
    (h : onAddRole roleName dropdowns roles = some (.roleCreated roles')) :
    roleName ≠ "" ∧ aasDescriptorDuplicateOrEmpty dropdowns = some false ∧
      ∃ ids, ids.map some = dropdowns ∧ roles' = roles ++ [⟨roleName, ids⟩] := by
  obtain ⟨result, hresult, hcreated⟩ := onAddRole_spec roleName dropdowns roles
  have hids := hcreated roles' (Option.some.inj (hresult.symm.trans h))
  unfold onAddRole at h
  split at h
  · cases h
  · rename_i hname
    split at h
    · cases h
    · cases h
    · rename_i hcheck
      exact ⟨hname, hcheck, hids⟩

theorem Validated.onLiveChange (h : Validated gone db page) (newValue : String) :
    Validated gone db (CreateSemanticProtocol.onLiveChange newValue page .inputSpId) := by
  simp only [CreateSemanticProtocol.onLiveChange]
  split
  · exact ⟨h.roles, h.fresh, h.dropdowns, h.selected, h.loaded⟩
  · exact ⟨h.roles, h.fresh, h.dropdowns, h.selected, h.loaded⟩

/-- What is typed for a name is compared with the names at once. -/
theorem Validated.roleName (h : Validated gone db page) (value : String) :
    Validated gone db
      (CreateSemanticProtocol.onLiveChange value { page with roleName := value }
        .inputRoleName) where
  roles := h.roles
  fresh herror := by
    have herror : (decide (value = "") || roleNameDuplicate page.data.roles value) = false := herror
    exact roleNameDuplicate_eq_false.mp (Bool.or_eq_false_iff.mp herror).2
  dropdowns := h.dropdowns
  selected := h.selected
  loaded := h.loaded

theorem Validated.setDropdowns (h : Validated gone db page) {dropdowns : List Dropdown}
    {enabled : Bool} (hne : dropdowns ≠ [])
    (hselected : ∀ text, some text ∈ dropdowns → Registered gone db text) :
    Validated gone db { page with dropdowns := dropdowns, addRoleEnabled := enabled } :=
  ⟨h.roles, h.fresh, hne, hselected, h.loaded⟩

theorem Validated.onAddRolePress (h : Validated gone db page) (hok : okEvent page .addRole) :
    Validated gone db (CreateSemanticProtocol.onAddRolePress page) := by
  obtain ⟨herror, hcheck⟩ := hok
  unfold CreateSemanticProtocol.onAddRolePress
  split
  · refine ⟨h.roles, fun hno => ?_, h.dropdowns, h.selected, h.loaded⟩
    cases hno
  · rename_i roles' hcreated
    obtain ⟨hname, hfalse, ids, hids, rfl⟩ := of_roleCreated hcreated
    have hroles : SoundRoles gone db (page.data.roles ++ [⟨page.roleName, ids⟩]) := by
      refine h.roles.append (h.fresh herror) hname ?_ ?_ ?_
      · rintro rfl
        exact h.dropdowns hids.symm
      · have hnodup := hcheck hfalse
        rw [← hids] at hnodup
        exact hnodup.of_map
      · intro id hid
        refine h.selected id ?_
        rw [← hids]
        exact List.mem_map_of_mem hid
    refine ⟨hroles, fun _ hmem => ?_, List.cons_ne_nil _ _, ?_, h.loaded⟩
    · obtain ⟨role, hrole, hempty⟩ := List.mem_map.mp hmem
      exact hroles.named role hrole hempty
    · intro text htext
      cases List.mem_singleton.mp htext
  · exact h
  · exact h

theorem validated_initiateModel (hne : page.dropdowns ≠ [])
    (hselected : ∀ text, some text ∈ page.dropdowns → Registered gone db text) :
    Validated gone db (initiateModel page).1 :=
  ⟨.nil, fun _ => List.not_mem_nil, hne, hselected, fun _ hmem => absurd hmem List.not_mem_nil⟩

theorem validated_resetScreenToInitial : Validated gone db (resetScreenToInitial page).1 := by
  refine ⟨.nil, fun _ => List.not_mem_nil, List.cons_ne_nil _ _, ?_, fun _ hmem =>
    absurd hmem List.not_mem_nil⟩
  intro text htext
  cases List.mem_singleton.mp htext

/-- What is created has passed all checks. -/
theorem submittable_of_put {url : String} {data : SemanticProtocol Role}
    (h : Validated gone db page)
    (hput : onCreateSemanticProtocol page.data.identification.id page.data = .put url data) :
    Submittable gone db data := by
  obtain rfl := eq_of_onCreateSemanticProtocol hput
  unfold onCreateSemanticProtocol at hput
  split at hput
  · cases hput
  · rename_i hspId
    split at hput
    · cases hput
    · rename_i hlength
      refine ⟨hspId, ?_, h.roles⟩
      exact List.length_pos_iff.mp (Decidable.not_not.mp hlength)

/-- What is sent is nothing or a request to load. -/
theorem initiateModel_sent (data : SemanticProtocol Role) :
    .putSemanticProtocol data ∉ (initiateModel page).2 := by
  intro hmem
  simp [initiateModel] at hmem

/-- Whatever is pressed, typed and selected. -/
theorem Validated.event (h : Validated gone db page) {e : Event} {next : Page × List Request}
    (hok : okEvent page e) (hnext : CreateSemanticProtocol.event page e = some next) :
    Validated gone db next.1 ∧
      ∀ data, .putSemanticProtocol data ∈ next.2 → Submittable gone db data := by
  have hnone : ∀ data, Request.putSemanticProtocol data ∈ ([] : List Request) →
      Submittable gone db data := fun _ hmem => by cases hmem
  have hset : ∀ (i : ℕ) {d : Dropdown}, page.dropdowns.set i d ≠ [] := by
    intro i d hnil
    have hlength := congrArg List.length hnil
    rw [List.length_set] at hlength
    exact h.dropdowns (List.length_eq_zero_iff.mp hlength)
  cases e with
  | afterShow =>
      obtain rfl := Option.some.inj hnext
      exact ⟨validated_initiateModel h.dropdowns h.selected,
        fun data hdata => absurd hdata (initiateModel_sent data)⟩
  | spId value =>
      obtain rfl := Option.some.inj hnext
      refine ⟨.onLiveChange ?_ value, hnone⟩
      exact ⟨h.roles, h.fresh, h.dropdowns, h.selected, h.loaded⟩
  | idType key =>
      obtain rfl := Option.some.inj hnext
      exact ⟨⟨h.roles, h.fresh, h.dropdowns, h.selected, h.loaded⟩, hnone⟩
  | roleName value =>
      obtain rfl := Option.some.inj hnext
      exact ⟨h.roleName value, hnone⟩
  | addDescriptorDropdown =>
      obtain rfl := Option.some.inj hnext
      refine ⟨h.setDropdowns (by simp) fun text htext => h.selected text ?_, hnone⟩
      simpa using htext
  | deleteDescriptorDropdown i =>
      obtain rfl := Option.some.inj hnext
      refine ⟨?_, hnone⟩
      unfold onDeleteCcMail
      split
      · rename_i hmany
        refine h.setDropdowns ?_ fun text htext => h.selected text (List.mem_of_mem_eraseIdx htext)
        intro hnil
        have hlength := congrArg List.length hnil
        rw [List.length_eraseIdx, List.length_nil] at hlength
        split at hlength <;> omega
      · exact h
  | select i text =>
      obtain ⟨hloaded, heq⟩ := Option.ite_none_right_eq_some.mp hnext
      obtain rfl := Option.some.inj heq
      refine ⟨h.setDropdowns (hset i) fun other hother => ?_, hnone⟩
      rcases List.mem_or_eq_of_mem_set hother with hold | hnew
      · exact h.selected other hold
      · rw [Option.some.inj hnew]
        exact h.loaded text hloaded
  | deselect i =>
      obtain rfl := Option.some.inj hnext
      refine ⟨h.setDropdowns (hset i) fun other hother => ?_, hnone⟩
      rcases List.mem_or_eq_of_mem_set hother with hold | hnew
      · exact h.selected other hold
      · cases hnew
  | addRole =>
      obtain ⟨-, heq⟩ := Option.ite_none_right_eq_some.mp hnext
      obtain rfl := Option.some.inj heq
      exact ⟨h.onAddRolePress hok, hnone⟩
  | deleteRole i =>
      obtain ⟨-, heq⟩ := Option.ite_none_right_eq_some.mp hnext
      obtain rfl := Option.some.inj heq
      have hsub : (onDeleteRoleObject (rowPath "/roles".toList i) page.data).roles.Sublist
          page.data.roles := by
        rw [onDeleteRoleObject, deleteRow_rowPath]
        exact List.eraseIdx_sublist ..
      refine ⟨⟨h.roles.sublist hsub, fun herror hmem => h.fresh herror ?_, h.dropdowns,
        h.selected, h.loaded⟩, hnone⟩
      exact (hsub.map _).subset hmem
  | create =>
      obtain ⟨-, heq⟩ := Option.ite_none_right_eq_some.mp hnext
      obtain rfl := Option.some.inj heq
      unfold onCreatePress
      split
      · rename_i hput
        refine ⟨h, fun data hdata => ?_⟩
        obtain rfl := Request.putSemanticProtocol.inj (List.mem_singleton.mp hdata)
        exact submittable_of_put h hput
      · exact ⟨⟨h.roles, h.fresh, h.dropdowns, h.selected, h.loaded⟩, hnone⟩
      · exact ⟨h, hnone⟩
      · exact ⟨h, hnone⟩
  | cancel =>
      obtain rfl := Option.some.inj hnext
      exact ⟨validated_resetScreenToInitial,
        fun data hdata => absurd hdata (initiateModel_sent data)⟩

theorem Validated.receive (h : Validated gone db page) {answer : Answer}
    (hanswer : ∀ model loaded, answer = .aasDescriptors model loaded →
      ∀ id ∈ loaded, Registered gone db id) :
    Validated gone db (CreateSemanticProtocol.receive page answer).1 ∧
      ∀ data, .putSemanticProtocol data ∉ (CreateSemanticProtocol.receive page answer).2 := by
  cases answer with
  | aasDescriptors model loaded =>
      simp only [CreateSemanticProtocol.receive]
      split
      · refine ⟨⟨h.roles, h.fresh, h.dropdowns, h.selected, ?_⟩, fun _ => List.not_mem_nil⟩
        exact hanswer model loaded rfl
      · exact ⟨h, fun _ => List.not_mem_nil⟩
  | semanticProtocols model loaded =>
      simp only [CreateSemanticProtocol.receive]
      split
      · exact ⟨⟨h.roles, h.fresh, h.dropdowns, h.selected, h.loaded⟩, fun _ => List.not_mem_nil⟩
      · exact ⟨h, fun _ => List.not_mem_nil⟩
  | notLoaded => exact ⟨h, fun _ => List.not_mem_nil⟩
  | created ok =>
      cases ok with
      | true => exact ⟨validated_resetScreenToInitial, fun data => initiateModel_sent data⟩
      | false => exact ⟨h, fun _ => List.not_mem_nil⟩

/-! ### While the registry goes on -/

variable {db' : Db} (hkeys : ∀ id, Registered gone db id → Registered gone db' id)

include hkeys

theorem SoundRoles.stays (h : SoundRoles gone db roles) : SoundRoles gone db' roles :=
  ⟨h.names, h.named, h.assigned, h.once,
    fun role hrole id hid => hkeys id (h.registered role hrole id hid)⟩

theorem Validated.stays (h : Validated gone db page) : Validated gone db' page :=
  ⟨h.roles.stays hkeys, h.fresh, h.dropdowns, fun text htext => hkeys text (h.selected text htext),
    fun id hid => hkeys id (h.loaded id hid)⟩

end

/-- What others and the page itself have called so far. -/
def Reached (aes : Aes) (db : Db) : Prop :=
  ∃ calls, exec (EndpointRegistry.step aes) Db.empty calls = some db

/-- The page works on descriptors that the registry has listed. -/
def validation (aes : Aes) (gone : String → Prop) :
    ClientServer.Invariant Db Page Request Answer where
  server := Reached aes
  client := Validated gone
  request db request := ∀ data, request = .putSemanticProtocol data → Submittable gone db data
  answer db answer := ∀ model loaded, answer = .aasDescriptors model loaded →
    ∀ id ∈ loaded, Registered gone db id

section

variable {aes : Aes} {gone : String → Prop} {db db' : Db}

theorem Reached.run (h : Reached aes db) (call : Call) : Reached aes (call.run aes db) := by
  obtain ⟨calls, hcalls⟩ := h
  refine ⟨calls ++ [call], ?_⟩
  rw [exec_append, hcalls]
  rfl

theorem stays_of_registered (hserver : Reached aes db')
    (hkeys : ∀ id, Registered gone db id → Registered gone db' id) :
    (validation aes gone).Stays db db' where
  server := hserver
  client _ h := h.stays hkeys
  request _ h data heq :=
    ⟨(h data heq).spId, (h data heq).roleAdded, (h data heq).roles.stays hkeys⟩
  answer _ h model loaded heq id hid := hkeys id (h model loaded heq id hid)

theorem Registered.run {id : String} (h : Registered gone db id) (call : Call)
    (hgone : ∀ env other, call = .deleteAasDescriptorByAasId env other → gone other) :
    Registered gone (call.run aes db) id := by
  rcases h with hid | hid
  · by_cases hdelete : ∃ env, call = .deleteAasDescriptorByAasId env id
    · obtain ⟨env, heq⟩ := hdelete
      exact .inr (hgone env id heq)
    · exact .inl (call.keys_run hid fun env heq => hdelete ⟨env, heq⟩)
  · exact .inr hid

/-- Only registered descriptors are listed. -/
theorem registered_of_list (hreached : Reached aes db) {ds : List AASDescriptorResponse}
    (hlist : listAllAASDescriptors aes db = .ok ds) {id : String}
    (hid : id ∈ ds.map (·.identification.id)) : Registered gone db id := by
  obtain ⟨calls, hcalls⟩ := hreached
  obtain ⟨ds', hlist', -, hkeys, -⟩ := list_of_linked aes (linked_of_exec hcalls)
  obtain rfl := Except.ok.inj (hlist.symm.trans hlist')
  exact .inl ((hkeys id).mp hid)

theorem keeps_validation (aes : Aes) (gone : String → Prop) :
    (session aes).Keeps (validation aes gone)
      (fun call => ∀ env id, call = .deleteAasDescriptorByAasId env id → gone id) okEvent where
  call db call hgone hreached :=
    stays_of_registered (hreached.run call) fun _ hid => hid.run call hgone
  handle env db request hreached _ := by
    have hsame : (validation aes gone).Stays db db :=
      stays_of_registered hreached fun _ h => h
    cases request with
    | getAASDescriptors model =>
        simp only [session, handle]
        split
        · rename_i ds hlist
          refine ⟨hsame, fun model' loaded heq id hid => ?_⟩
          obtain ⟨-, rfl⟩ := Answer.aasDescriptors.inj heq
          exact registered_of_list hreached hlist hid
        · exact ⟨hsame, fun _ _ heq => by cases heq⟩
    | getSemanticProtocols model =>
        simp only [session, handle]
        split
        · exact ⟨hsame, fun _ _ heq => by cases heq⟩
        · exact ⟨hsame, fun _ _ heq => by cases heq⟩
    | putSemanticProtocol data =>
        have hregistered : ∀ id, Registered gone db id →
            Registered gone ((Call.createSemanticProtocol env (body data)).run aes db) id :=
          fun id hid => hid.run _ fun _ _ heq => by cases heq
        exact ⟨stays_of_registered (hreached.run (.createSemanticProtocol env (body data)))
          hregistered, fun _ _ heq => by cases heq⟩
  event db page e next h hok hnext := by
    obtain ⟨hpage, hsent⟩ := Validated.event h hok hnext
    exact ⟨hpage, fun request hrequest data heq => hsent data (heq ▸ hrequest)⟩
  receive db page answer h hanswer := by
    obtain ⟨hpage, hsent⟩ := Validated.receive h hanswer
    exact ⟨hpage, fun request hrequest data heq => absurd (heq ▸ hrequest) (hsent data)⟩

theorem validation_onShown : (validation aes gone).Holds (onShown Db.empty) where
  server := ⟨[], rfl⟩
  client := validated_initiateModel (List.cons_ne_nil _ _) fun text htext => by
    cases List.mem_singleton.mp htext
  requests request hrequest data heq := by
    rw [heq] at hrequest
    exact absurd hrequest (initiateModel_sent data)
  answers _ hanswer := absurd hanswer List.not_mem_nil

/-! ### What the registry makes of it -/

variable {env : CallEnv} {data : SemanticProtocol Role}

/-- Without the protocol there is nothing to delete of it. -/
theorem deleteRoles_of_free (hlinked : db.RolesLinked) {id : String}
    (hfree : id ∉ db.semanticProtocols.keys) : db.deleteRoles id = db := by
  have hroles : db.roles.filter (·.semProtocol ≠ id) = db.roles := by
    refine List.filter_eq_self.mpr fun role hrole => ?_
    rw [decide_eq_true_iff]
    rintro rfl
    exact hfree (hlinked role hrole).1
  rw [Db.deleteRoles, hroles]

theorem Submittable.storable_iff (h : Submittable gone db data) :
    (body data).Storable db' ↔
      ∀ role ∈ data.roles, ∀ id ∈ role.aasDescriptorIds, id ∈ db'.aasDescriptors.keys := by
  have hnames : ((body data).roles.map (·.name)) = data.roles.map (·.name) := by
    simp [body]
  have hids : ∀ ids : List String,
      (ids.map fun id => (⟨id, ""⟩ : IIdentifier)).map (·.id) = ids := by
    intro ids
    rw [List.map_map]
    exact List.map_id ids
  constructor
  · rintro ⟨-, hroles⟩ role hrole id hid
    exact (hroles _ (List.mem_map_of_mem hrole)).2 _ (List.mem_map_of_mem hid)
  · intro hregistered
    refine ⟨hnames ▸ h.roles.names, fun role hrole => ?_⟩
    obtain ⟨given, hgiven, rfl⟩ := List.mem_map.mp hrole
    refine ⟨?_, fun aas haas => ?_⟩
    · rw [hids]
      exact h.roles.once given hgiven
    · obtain ⟨id, hid, rfl⟩ := List.mem_map.mp haas
      exact hregistered given hgiven id hid

theorem Submittable.isOk_iff (h : Submittable gone db data) (hreached : Reached aes db)
    (hanswers : env.answers 0 = true ∧ env.answers 1 = true) :
    (createSemanticProtocol env db (body data)).1.isOk = true ↔
      data.identification.id ∉ db.semanticProtocols.keys ∧
        ∀ role ∈ data.roles, ∀ id ∈ role.aasDescriptorIds, id ∈ db.aasDescriptors.keys := by
  obtain ⟨calls, hcalls⟩ := hreached
  have hid : (body data).identification.id = data.identification.id := rfl
  rw [createSemanticProtocol, if_pos hanswers.1, hid]
  by_cases hfree : data.identification.id ∈ db.semanticProtocols.keys
  · rw [if_pos hfree]
    simp [hfree, Except.isOk, Except.toBool]
  · have hsaved : (db.saveSemanticProtocol (body data)).isSome = true ↔
        db.Accepts (body data).roleRows := by
      unfold Db.saveSemanticProtocol
      split <;> simp [*]
    have haccepts := (rolesUnique_of_exec hcalls).accepts_iff (body data)
    rw [hid, deleteRoles_of_free (rolesLinked_of_exec hcalls) hfree] at haccepts
    rw [if_neg hfree, finish_isOk_iff, hsaved, haccepts, h.storable_iff]
    simp [hfree, hanswers.2]

theorem Submittable.read (h : Submittable gone db data) (hreached : Reached aes db)
    (hok : (createSemanticProtocol env db (body data)).1.isOk = true) :
    ∃ protocol, readSemanticProtocolById (createSemanticProtocol env db (body data)).2
        data.identification.id = .ok (some protocol) ∧ (body data).ReadAs protocol := by
  obtain ⟨calls, hcalls⟩ := hreached
  have hholds : ((Call.createSemanticProtocol env (body data)).run aes db).Holds (body data) :=
    Call.holds_of_succeeds (rolesLinked_of_exec hcalls) rfl hok
  have hroles : (body data).roles ≠ [] := by
    simpa [body] using h.roleAdded
  have hread := hholds.read
  rw [if_neg hroles] at hread
  exact ⟨_, hread, hholds.readAs⟩

end

/-- Somebody deletes the descriptor in the course of the schedule. -/
def DeletedIn (ls : List (ClientServer.Label Call CallEnv Event)) (id : String) : Prop :=
  ∃ env, .call (.deleteAasDescriptorByAasId env id) ∈ ls

/-- Whatever is typed, selected and pressed, in whatever order the requests and the answers
arrive, and whatever else is called in the registry meanwhile: every role of a protocol that
the page sends has a name and descriptors, of which only those are not registered that have
been deleted meanwhile. The protocol is created exactly if its id is free and all of them are
registered, and is read then as it was in the form. -/
theorem created_as_added (aes : Aes) (ls : List (ClientServer.Label Call CallEnv Event))
    (s : ClientServer.State Db Page Request Answer)
    (hreached : exec (session aes).step (onShown Db.empty) ls = some s)
    (hevents : Guarded (session aes).step (ClientServer.Meets okEvent) (onShown Db.empty) ls)
    (data : SemanticProtocol Role) (hsent : .putSemanticProtocol data ∈ s.requests)
    (env : CallEnv) (hanswers : env.answers 0 = true ∧ env.answers 1 = true) :
    (∀ role ∈ data.roles, role.name ≠ "" ∧ role.aasDescriptorIds ≠ [] ∧
      ∀ id ∈ role.aasDescriptorIds, id ∉ s.server.aasDescriptors.keys → DeletedIn ls id) ∧
    ((createSemanticProtocol env s.server (body data)).1.isOk = true ↔
      data.identification.id ∉ s.server.semanticProtocols.keys ∧
        ∀ role ∈ data.roles, ∀ id ∈ role.aasDescriptorIds, id ∈ s.server.aasDescriptors.keys) ∧
    ((createSemanticProtocol env s.server (body data)).1.isOk = true →
      ∃ protocol, readSemanticProtocolById (createSemanticProtocol env s.server (body data)).2
          data.identification.id = .ok (some protocol) ∧ (body data).ReadAs protocol) := by
  have hholds : (validation aes (DeletedIn ls)).Holds s :=
    validation_onShown.exec (keeps_validation aes (DeletedIn ls))
      (fun call hcall env id heq => ⟨env, heq ▸ hcall⟩) hevents hreached
  have hsubmittable : Submittable (DeletedIn ls) s.server data :=
    hholds.requests _ hsent data rfl
  refine ⟨fun role hrole => ⟨?_, ?_, fun id hid hnot => ?_⟩,
    hsubmittable.isOk_iff hholds.server hanswers, hsubmittable.read hholds.server⟩
  · exact hsubmittable.roles.named role hrole
  · exact hsubmittable.roles.assigned role hrole
  · exact (hsubmittable.roles.registered role hrole id hid).resolve_left hnot

/-- Two descriptors are registered, loaded and assigned to a role. -/
def twoDescriptors : List (ClientServer.Label Call CallEnv Event) :=
  [.call (.createAASDescriptor (sampleEnv firstSalt)
      (sampleRecord "first" "asset" (sampleEndpoint .undefined .undefined))),
    .call (.createAASDescriptor (sampleEnv firstSalt)
      (sampleRecord "second" "other" (sampleEndpoint .undefined .undefined))),
    .handle (sampleEnv firstSalt) 0, .receive 0, .event (.spId "protocol"),
    .event (.roleName "Operator"), .event (.select 0 "first"), .event .addDescriptorDropdown,
    .event (.select 1 "second"), .event .addRole, .event .create]

theorem created_as_added_twoDescriptors :
    ∃ s data protocol, exec (session sampleAes).step (onShown Db.empty) twoDescriptors = some s ∧
      .putSemanticProtocol data ∈ s.requests ∧
      readSemanticProtocolById
          (createSemanticProtocol (sampleEnv firstSalt) s.server (body data)).2 "protocol" =
        .ok (some protocol) ∧ (body data).ReadAs protocol := by
  obtain ⟨-, -, hread⟩ := created_as_added sampleAes twoDescriptors _ rfl (by decide) _
    (.tail _ (.head [])) (sampleEnv firstSalt) ⟨rfl, rfl⟩
  obtain ⟨protocol, hprotocol⟩ := hread (by decide)
  exact ⟨_, _, protocol, rfl, .tail _ (.head []), hprotocol⟩

end I40Aas.RegistryUi.CreateSemanticProtocol
