import I40Aas.Lib.Execution

/-!
The connection of a `SimpleMongoDbClient`, which the onboarding skill and the storage adapter
have alike. The flag `connected` is set before the connection is there, stays set when it cannot
be made, and is cleared only after an old one has been closed. Whoever calls `connect` while it is
set is told at once that the client is connected.
-/

namespace I40Aas.MongoClient

open I40Aas.Lib

inductive Progress
  | connecting
  | resolved
  | rejected
  deriving DecidableEq

/-- A call of `connect`. -/
structure ConnectCall where
  progress : Progress
  /-- No `disconnect` was called since the call began. -/
  undisturbed : Bool
  deriving DecidableEq

/-- The clients of the library are numbered as their connections are made. -/
structure SimpleMongoDbClient where
  connected : Bool
  client : Option ℕ
  /-- The client that the database handle is from. -/
  db : Option ℕ
  made : ℕ
  /-- The clients that `close` was called on. -/
  closed : List ℕ
  calls : List ConnectCall
  /-- How many calls of `disconnect` wait for a client to be closed. -/
  closing : ℕ
  deriving DecidableEq

def SimpleMongoDbClient.initial : SimpleMongoDbClient where
  connected := false
  client := none
  db := none
  made := 0
  closed := []
  calls := []
  closing := 0

inductive Label
  | connect
  /-- `MongoClient.connect` has succeeded or failed for a call. -/
  | attemptEnds (call : ℕ) (ok : Bool)
  | disconnect
  /-- `close` has succeeded or failed for a call of `disconnect`. -/
  | closeEnds (ok : Bool)
  deriving DecidableEq

/-- How `update`, `getOneByKey` and the other operations begin. -/
inductive Operation
  | throws (message : String)
  | usesClosed (client : ℕ)
  | uses (client : ℕ)
  deriving DecidableEq

namespace SimpleMongoDbClient

def getDb (c : SimpleMongoDbClient) : Except String ℕ :=
  match c.db with
  | none => .error "Attempting to use database without connecting to it first"
  | some client => .ok client

def operation (c : SimpleMongoDbClient) : Operation :=
  match c.getDb with
  | .error message => .throws message
  | .ok client => if client ∈ c.closed then .usesClosed client else .uses client

def connect (c : SimpleMongoDbClient) : SimpleMongoDbClient :=
  if c.connected then { c with calls := c.calls ++ [⟨.resolved, true⟩] }
  else { c with connected := true, calls := c.calls ++ [⟨.connecting, true⟩] }

/-- The rest of `connect`, after the attempt. -/
def attemptEnds (c : SimpleMongoDbClient) (call : ℕ) (ok : Bool) : SimpleMongoDbClient :=
  if ok then
    { c with
      client := some c.made
      db := some c.made
      made := c.made + 1
      calls := c.calls.modify call fun t => { t with progress := .resolved } }
  else { c with calls := c.calls.modify call fun t => { t with progress := .rejected } }

def disconnect (c : SimpleMongoDbClient) : SimpleMongoDbClient :=
  let calls := c.calls.map fun t => { t with undisturbed := false }
  match c.client with
  | none => { c with calls := calls }
  | some client =>
      { c with calls := calls, closed := c.closed ++ [client], closing := c.closing + 1 }

/-- The rest of `disconnect`, after the client was closed. -/
def closeEnds (c : SimpleMongoDbClient) (ok : Bool) : SimpleMongoDbClient :=
  { c with connected := c.connected && !ok, closing := c.closing - 1 }

def step (c : SimpleMongoDbClient) : Label → Option SimpleMongoDbClient
  | .connect => some c.connect
  | .attemptEnds call ok =>
      if (c.calls[call]?.map ConnectCall.progress) = some .connecting then
        some (c.attemptEnds call ok)
      else none
  | .disconnect => some c.disconnect
  | .closeEnds ok => if 0 < c.closing then some (c.closeEnds ok) else none

/-- The next operation uses a client that was not closed. -/
def Usable (c : SimpleMongoDbClient) : Prop :=
  ∃ client, c.operation = .uses client

/-- After a call of `connect` that has resolved, and without a `disconnect` since it began, the
database can be used. -/
def Kept (c : SimpleMongoDbClient) : Prop :=
  ∀ call ∈ c.calls, call.progress = .resolved → call.undisturbed = true → c.Usable

/-- `connect` is called only while the flag is not set or the database can be used. -/
def ConnectsInTime (c : SimpleMongoDbClient) (l : Label) : Prop :=
  l = .connect → c.connected = true → c.Usable

/-- No client is closed before it is made. -/
def WellNumbered (c : SimpleMongoDbClient) : Prop :=
  (∀ client ∈ c.closed, client < c.made) ∧ ∀ client, c.client = some client → client < c.made

end SimpleMongoDbClient

open SimpleMongoDbClient

variable {c c' : SimpleMongoDbClient} {l : Label}

theorem operation_eq_uses_iff {client : ℕ} :
    c.operation = .uses client ↔ c.db = some client ∧ client ∉ c.closed := by
  unfold operation getDb
  cases c.db with
  | none => simp
  | some client' =>
      by_cases hclosed : client' ∈ c.closed
      · simp only [hclosed, if_true]
        refine iff_of_false (by simp) ?_
        rintro ⟨heq, hopen⟩
        obtain rfl := Option.some.inj heq
        exact hopen hclosed
      · simp only [hclosed, if_false, Operation.uses.injEq, Option.some.injEq]
        refine (and_iff_left_of_imp ?_).symm
        rintro rfl
        exact hclosed

theorem usable_iff : c.Usable ↔ ∃ client, c.db = some client ∧ client ∉ c.closed := by
  simp only [Usable, operation_eq_uses_iff]

theorem usable_attemptEnds (h : c.WellNumbered) (call : ℕ) : (c.attemptEnds call true).Usable := by
  rw [usable_iff]
  refine ⟨c.made, rfl, fun hmem => ?_⟩
  exact Nat.lt_irrefl _ (h.1 c.made hmem)

theorem wellNumbered_of_step (h : c.WellNumbered) (hstep : c.step l = some c') :
    c'.WellNumbered := by
  cases l with
  | connect =>
      obtain rfl := Option.some.inj hstep
      unfold connect
      split
      · exact h
      · exact h
  | attemptEnds call ok =>
      simp only [step] at hstep
      split at hstep
      · obtain rfl := Option.some.inj hstep
        cases ok with
        | true =>
            refine ⟨fun client hmem => Nat.lt_succ_of_lt (h.1 client hmem), ?_⟩
            rintro client hclient
            obtain rfl := Option.some.inj hclient
            exact Nat.lt_succ_self _
        | false => exact h
      · cases hstep
  | disconnect =>
      obtain rfl := Option.some.inj hstep
      unfold disconnect
      simp only
      split
      · exact h
      · rename_i client hclient
        refine ⟨fun client' hmem => ?_, h.2⟩
        rcases List.mem_append.mp hmem with hmem | hmem
        · exact h.1 client' hmem
        · rw [List.mem_singleton.mp hmem]
          exact h.2 client hclient
  | closeEnds ok =>
      simp only [step] at hstep
      split at hstep
      · obtain rfl := Option.some.inj hstep
        exact h
      · cases hstep

/-- A call that resolves without an attempt of its own breaks the promise unless the database
can be used already. -/
theorem kept_connect_iff (h : c.Kept) : c.connect.Kept ↔ (c.connected = true → c.Usable) := by
  unfold connect
  cases hconnected : c.connected with
  | true =>
      simp only [if_true, forall_const]
      constructor
      · intro hkept
        exact hkept _ (List.mem_append_right _ (List.mem_singleton_self _)) rfl rfl
      · exact fun husable _ _ _ _ => husable
  | false =>
      simp only [Bool.false_eq_true, if_false, false_implies, iff_true]
      intro call hmem hresolved hundisturbed
      rcases List.mem_append.mp hmem with hmem | hmem
      · exact h call hmem hresolved hundisturbed
      · rw [List.mem_singleton.mp hmem] at hresolved
        cases hresolved

theorem kept_attemptEnds (h : c.Kept) (hnumbered : c.WellNumbered) (call : ℕ) (ok : Bool) :
    (c.attemptEnds call ok).Kept := by
  cases ok with
  | true => exact fun _ _ _ _ => usable_attemptEnds hnumbered call
  | false =>
      intro t hmem hresolved hundisturbed
      obtain ⟨i, hi⟩ := List.getElem?_of_mem hmem
      have hi' : (c.calls.modify call fun t => { t with progress := .rejected })[i]? = some t := hi
      rw [List.getElem?_modify] at hi'
      obtain ⟨u, hu, rfl⟩ := Option.map_eq_some_iff.mp hi'
      split at hresolved
      · cases hresolved
      · rename_i hne
        rw [if_neg hne] at hundisturbed
        exact h u (List.mem_of_getElem? hu) hresolved hundisturbed

theorem kept_disconnect (c : SimpleMongoDbClient) : c.disconnect.Kept := by
  have hcalls : c.disconnect.calls = c.calls.map fun t => { t with undisturbed := false } := by
    unfold disconnect
    cases c.client <;> rfl
  intro call hmem _ hundisturbed
  rw [hcalls] at hmem
  obtain ⟨t, -, rfl⟩ := List.mem_map.mp hmem
  cases hundisturbed

theorem kept_iff_of_step (h : c.Kept) (hnumbered : c.WellNumbered)
    (hstep : c.step l = some c') : c'.Kept ↔ c.ConnectsInTime l := by
  cases l with
  | connect =>
      obtain rfl := Option.some.inj hstep
      rw [kept_connect_iff h, ConnectsInTime]
      simp
  | attemptEnds call ok =>
      simp only [step] at hstep
      split at hstep
      · obtain rfl := Option.some.inj hstep
        exact iff_of_true (kept_attemptEnds h hnumbered call ok) (fun heq => by cases heq)
      · cases hstep
  | disconnect =>
      obtain rfl := Option.some.inj hstep
      exact iff_of_true (kept_disconnect c) (fun heq => by cases heq)
  | closeEnds ok =>
      simp only [step] at hstep
      split at hstep
      · obtain rfl := Option.some.inj hstep
        exact iff_of_true h (fun heq => by cases heq)
      · cases hstep

/-- In every interleaving the database can be used after each resolved `connect`, up to the next
`disconnect`, if and only if `connect` is called only while the flag is not set or the database can
be used already. -/
theorem usable_after_connect_iff (ls : List Label) :
    Along SimpleMongoDbClient.step Kept .initial ls ↔
      Guarded SimpleMongoDbClient.step ConnectsInTime .initial ls := by
  apply along_iff_guarded (I := WellNumbered)
  · exact fun _ _ _ hnumbered hstep => wellNumbered_of_step hnumbered hstep
  · exact fun _ _ _ hnumbered hkept htime hstep =>
      (kept_iff_of_step hkept hnumbered hstep).mpr htime
  · exact fun _ _ _ hnumbered hkept htime hstep hkept' =>
      htime ((kept_iff_of_step hkept hnumbered hstep).mp hkept')
  · exact ⟨List.forall_mem_nil _, fun _ h => by cases h⟩
  · exact List.forall_mem_nil _

/-- Two first requests at once. -/
theorem not_usable_after_connect_twice :
    ¬ ∀ ls : List Label, Along SimpleMongoDbClient.step Kept .initial ls := by
  intro h
  have hkept : SimpleMongoDbClient.initial.connect.connect.Kept :=
    ((h [.connect, .connect]).2 _ rfl).2 _ rfl
  obtain ⟨client, hclient⟩ := hkept ⟨.resolved, true⟩ (by decide) rfl rfl
  cases hclient

end I40Aas.MongoClient
