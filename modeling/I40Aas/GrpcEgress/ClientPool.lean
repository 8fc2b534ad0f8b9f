import I40Aas.GrpcEgress.Clients
import I40Aas.Lib.Execution
import I40Aas.Lib.Slice

/-!
The slice of client pointers that the gRPC egress keeps, over any number of calls, and the
connections that were created for it. A client that is taken out of the slice is forgotten with
its connection open, so a shutdown closes only the connections of the clients that are left.
-/

namespace I40Aas.GrpcEgress

open I40Aas.Lib I40Aas.Interaction

/-- A client that is `nil` is `none`. The connections are numbered as they are created. -/
structure ClientPool where
  grpcClients : Slice (Option (GrpcClient ℕ))
  created : ℕ
  /-- The connections that `Close` was called on. -/
  closed : List ℕ

def ClientPool.initial : ClientPool where
  grpcClients := .empty
  created := 0
  closed := []

/-- A call of `obtainGRPCClient`. -/
structure Obtain where
  cfg : GRPCClientConfig
  round : Round ℕ

/-- A new connection has the next number. -/
def Round.numbered (round : Round ℕ) (created : ℕ) : Round ℕ :=
  { round with dial := fun cfg => (round.dial cfg).map fun _ => created }

/-- How the loop over the clients ends. -/
inductive Search
  | panic
  | missing
  | reuse (c : GrpcClient ℕ)
  | remove (i : ℕ)

/-- The loop from an index on. -/
def search (call : Obtain) : List (Option (GrpcClient ℕ)) → ℕ → Search
  | [], _ => .missing
  | none :: _, _ => .panic
  | some c :: rest, i =>
      if c.cfg.url = call.cfg.url then
        if (call.round.getState c.conn).reusable then .reuse c else .remove i
      else search call rest (i + 1)

/-- The end of `obtainGRPCClient`, after the loop. -/
def ClientPool.appendGRPCClient (pool : ClientPool) (call : Obtain) :
    Except Error (GrpcClient ℕ) × ClientPool :=
  match newGRPCClient (call.round.numbered pool.created) call.cfg with
  | .error err => (.error err, pool)
  | .ok c =>
      (.ok c, { pool with
        grpcClients := pool.grpcClients.append (some c) none
        created := pool.created + 1 })

/-- There is no result where the call panics. -/
def ClientPool.obtainGRPCClient (pool : ClientPool) (call : Obtain) :
    Option (Except Error (GrpcClient ℕ) × ClientPool) :=
  match search call pool.grpcClients.elements 0 with
  | .panic => none
  | .reuse c => some (.ok c, pool)
  | .missing => some (pool.appendGRPCClient call)
  | .remove i =>
      (pool.grpcClients.removeByLast? i none).map fun grpcClients =>
        ClientPool.appendGRPCClient { pool with grpcClients := grpcClients } call

def ClientPool.step (pool : ClientPool) (call : Obtain) : Option ClientPool :=
  (pool.obtainGRPCClient call).map Prod.snd

/-- The loop of `Shutdown`, up to the first connection that cannot be closed. -/
def closeClients (close : ℕ → Option Error) :
    List (Option (GrpcClient ℕ)) → List ℕ → Option (Option Error × List ℕ)
  | [], closed => some (none, closed)
  | none :: _, _ => none
  | some c :: rest, closed =>
      match close c.conn with
      | some err => some (some err, closed ++ [c.conn])
      | none => closeClients close rest (closed ++ [c.conn])

/-- `amqpClose` is the outcome of closing the AMQP client. -/
def ClientPool.shutdown (pool : ClientPool) (close : ℕ → Option Error)
    (amqpClose : Option Error) : Option (Option Error × ClientPool) :=
  (closeClients close pool.grpcClients.elements pool.closed).map fun (err, closed) =>
    (err.or amqpClose, { pool with closed := closed })

def ClientPool.clients (pool : ClientPool) : List (GrpcClient ℕ) :=
  pool.grpcClients.elements.filterMap id

def ClientPool.Contains (pool : ClientPool) (c : GrpcClient ℕ) : Prop :=
  some c ∈ pool.grpcClients.elements

/-- What holds between any two calls. -/
structure ClientPool.WellFormed (pool : ClientPool) : Prop where
  not_nil : none ∉ pool.grpcClients.elements
  nodup_urls : (urls pool.clients).Nodup

/-- What a call does to the clients, and what it returns. -/
structure ClientPool.Serves (pool : ClientPool) (call : Obtain)
    (result : Except Error (GrpcClient ℕ)) (pool' : ClientPool) : Prop where
  removed : ∀ c, pool.Contains c → ¬ pool'.Contains c →
    c.cfg.url = call.cfg.url ∧ call.round.getState c.conn ∉ [.ready, .connecting, .idle]
  returned : ∀ c, result = .ok c → pool'.Contains c ∧ c.cfg.url = call.cfg.url ∧
    (pool.Contains c → call.round.getState c.conn ∈ [.ready, .connecting, .idle])

/-- Every connection ever created is the one of a client, or was closed. -/
def ClientPool.Accounted (pool : ClientPool) : Prop :=
  ∀ conn < pool.created, (∃ c, pool.Contains c ∧ c.conn = conn) ∨ conn ∈ pool.closed

def ClientPool.AllClosed (pool : ClientPool) : Prop :=
  ∀ conn < pool.created, conn ∈ pool.closed

/-- A call that takes no client out of the slice. -/
def ClientPool.Keeps (pool : ClientPool) (call : Obtain) : Prop :=
  ∀ c, pool.Contains c → c.cfg.url = call.cfg.url →
    (call.round.getState c.conn).reusable = true

/-- The clients behind the pointers, each with a connection of its own. -/
structure ClientPool.Holds (pool : ClientPool) (cs : List (GrpcClient ℕ)) : Prop where
  elements : pool.grpcClients.elements = cs.map some
  nodup_urls : (urls cs).Nodup
  nodup_conns : (cs.map GrpcClient.conn).Nodup
  conn_lt : ∀ c ∈ cs, c.conn < pool.created

theorem reusable_eq_true_iff {state : ConnectivityState} :
    state.reusable = true ↔ state ∈ [.ready, .connecting, .idle] := by
  cases state <;> simp [ConnectivityState.reusable]

section

variable {pool pool' : ClientPool} {cs : List (GrpcClient ℕ)} {call : Obtain}

theorem ClientPool.holds_initial : ClientPool.initial.Holds [] where
  elements := rfl
  nodup_urls := List.nodup_nil
  nodup_conns := List.nodup_nil
  conn_lt := List.forall_mem_nil _

theorem ClientPool.Holds.contains_iff (h : pool.Holds cs) {c : GrpcClient ℕ} :
    pool.Contains c ↔ c ∈ cs := by
  rw [ClientPool.Contains, h.elements, List.mem_map]
  simp

theorem ClientPool.Holds.clients_eq (h : pool.Holds cs) : pool.clients = cs := by
  rw [ClientPool.clients, h.elements, List.filterMap_map]
  exact List.filterMap_some

theorem ClientPool.Holds.wellFormed (h : pool.Holds cs) : pool.WellFormed where
  not_nil := by
    rw [h.elements, List.mem_map]
    rintro ⟨c, -, hc⟩
    cases hc
  nodup_urls := by
    rw [h.clients_eq]
    exact h.nodup_urls

/-- The loop over the pointers is the search among the clients. -/
theorem search_map_some (call : Obtain) (cs : List (GrpcClient ℕ)) (k : ℕ) :
    search call (cs.map some) k =
      match (cs.zipIdx k).find? fun ci => ci.1.cfg.url = call.cfg.url with
      | none => .missing
      | some (c, i) => if (call.round.getState c.conn).reusable then .reuse c else .remove i := by
  induction cs generalizing k with
  | nil => rfl
  | cons c cs ih =>
      rw [List.map_cons, List.zipIdx_cons, List.find?_cons, search]
      by_cases hurl : c.cfg.url = call.cfg.url
      · simp [hurl]
      · rw [if_neg hurl, ih]
        simp [hurl]

theorem elements_removeByLast {s : Slice (Option (GrpcClient ℕ))} {i : ℕ}
    (hs : s.elements = cs.map some) (hi : i < cs.length) :
    ∃ s', s.removeByLast? i none = some s' ∧ s'.elements = (swapRemove cs i).map some := by
  obtain rfl | ⟨front, last, rfl⟩ := cs.eq_nil_or_concat
  · cases hi
  · rw [List.concat_eq_append] at hs hi ⊢
    have hlength : i < s.length := by
      rw [← Slice.length_elements, hs, List.length_map]
      exact hi
    rw [List.map_append, List.map_singleton] at hs
    obtain ⟨s', hs', helements⟩ := Slice.removeByLast?_eq none hs hlength
    refine ⟨s', hs', ?_⟩
    rw [helements, swapRemove, List.getLast?_concat]
    simp [List.map_dropLast, List.map_set]

/-- What a call can do to the pool: find a client, or make one beside those for other
addresses, if a connection can be made. -/
inductive ClientPool.Obtains (pool : ClientPool) (cs : List (GrpcClient ℕ)) (call : Obtain) :
    Except Error (GrpcClient ℕ) → ClientPool → List (GrpcClient ℕ) → Prop
  | found {c : GrpcClient ℕ} : c ∈ cs → c.cfg.url = call.cfg.url →
      (call.round.getState c.conn).reusable = true → Obtains pool cs call (.ok c) pool cs
  | failed {err : Error} {pool' : ClientPool} {rest : List (GrpcClient ℕ)} :
      (∀ c ∈ cs, c.cfg.url = call.cfg.url → (call.round.getState c.conn).reusable = false) →
      rest.Perm (cs.filter fun c => c.cfg.url ≠ call.cfg.url) →
      pool'.created = pool.created → pool'.closed = pool.closed →
      Obtains pool cs call (.error err) pool' rest
  | created {pool' : ClientPool} {rest : List (GrpcClient ℕ)} :
      (∀ c ∈ cs, c.cfg.url = call.cfg.url → (call.round.getState c.conn).reusable = false) →
      rest.Perm (cs.filter fun c => c.cfg.url ≠ call.cfg.url) →
      pool'.created = pool.created + 1 → pool'.closed = pool.closed →
      Obtains pool cs call (.ok ⟨call.cfg, pool.created⟩) pool'
        (rest ++ [⟨call.cfg, pool.created⟩])

theorem newGRPCClient_numbered {round : Round ℕ} {created : ℕ} {cfg : GRPCClientConfig}
    {c : GrpcClient ℕ} (h : newGRPCClient (round.numbered created) cfg = .ok c) :
    c = ⟨cfg, created⟩ := by
  unfold newGRPCClient at h
  split at h
  · cases h
  · split at h
    · cases h
    · split at h
      · cases h
      · rename_i conn hdial
        obtain rfl := Except.ok.inj h
        change (round.dial cfg).map (fun _ => created) = .ok conn at hdial
        cases hok : round.dial cfg with
        | error err =>
            rw [hok] at hdial
            cases hdial
        | ok conn' =>
            rw [hok] at hdial
            obtain rfl := Except.ok.inj hdial
            rfl

/-- The end of a call, with the clients that are left after the loop. -/
theorem obtains_appendGRPCClient (pool : ClientPool) {rest : List (GrpcClient ℕ)}
    {s : Slice (Option (GrpcClient ℕ))}
    (hs : s.elements = rest.map some)
    (hunusable : ∀ c ∈ cs, c.cfg.url = call.cfg.url →
      (call.round.getState c.conn).reusable = false)
    (hrest : rest.Perm (cs.filter fun c => c.cfg.url ≠ call.cfg.url)) :
    ∃ result pool' cs',
      ClientPool.appendGRPCClient { pool with grpcClients := s } call = (result, pool') ∧
      appendGRPCClient (call.round.numbered pool.created) rest call.cfg = (result, cs') ∧
      pool'.grpcClients.elements = cs'.map some ∧ pool.Obtains cs call result pool' cs' := by
  unfold ClientPool.appendGRPCClient appendGRPCClient
  cases hnew : newGRPCClient (call.round.numbered pool.created) call.cfg with
  | error err => exact ⟨_, _, _, rfl, rfl, hs, .failed hunusable hrest rfl rfl⟩
  | ok c =>
      obtain rfl := newGRPCClient_numbered hnew
      refine ⟨_, _, _, rfl, rfl, ?_, .created hunusable hrest rfl rfl⟩
      rw [Slice.elements_append, hs, List.map_append, List.map_singleton]

/-- On pointers a call does what it does on the clients behind them. -/
theorem ClientPool.Holds.obtains (h : pool.Holds cs) (call : Obtain) :
    ∃ result pool' cs', pool.obtainGRPCClient call = some (result, pool') ∧
      GrpcEgress.obtainGRPCClient (call.round.numbered pool.created) cs call.cfg =
        (result, cs') ∧
      pool'.grpcClients.elements = cs'.map some ∧ pool.Obtains cs call result pool' cs' := by
  unfold ClientPool.obtainGRPCClient GrpcEgress.obtainGRPCClient
  rw [h.elements, search_map_some]
  rcases find_url_cases cs call.cfg with ⟨c, i, hfind, hmem, hurl, hget⟩ | ⟨hfind, hnone⟩
  · rw [hfind]
    by_cases hreusable : (call.round.getState c.conn).reusable = true
    · refine ⟨.ok c, pool, cs, ?_, ?_, h.elements, .found hmem hurl hreusable⟩
      · simp [hreusable]
      · simp [hreusable, Round.numbered]
    · have hi : i < cs.length := (List.getElem?_eq_some_iff.mp hget).1
      obtain ⟨s', hs', helements⟩ := elements_removeByLast h.elements hi
      have hunusable : ∀ c' ∈ cs, c'.cfg.url = call.cfg.url →
          (call.round.getState c'.conn).reusable = false := by
        intro c' hmem' hurl'
        obtain rfl : c' = c :=
          List.inj_on_of_nodup_map h.nodup_urls hmem' hmem (hurl'.trans hurl.symm)
        exact Bool.eq_false_iff.mpr hreusable
      obtain ⟨result, pool', cs', hpool', hcs', hobtains⟩ :=
        obtains_appendGRPCClient pool helements hunusable
          (swapRemove_perm_filter h.nodup_urls hget hurl)
      refine ⟨result, pool', cs', ?_, ?_, hobtains⟩
      · simp [hreusable, hs', hpool']
      · simp [hreusable, Round.numbered, ← hcs']
  · rw [hfind]
    have hfilter : cs.filter (fun c => c.cfg.url ≠ call.cfg.url) = cs :=
      List.filter_eq_self.mpr fun c hc => decide_eq_true (hnone c hc)
    obtain ⟨result, pool', cs', hpool', hcs', hobtains⟩ :=
      obtains_appendGRPCClient pool h.elements
        (fun c hc hurl => absurd hurl (hnone c hc)) (List.Perm.of_eq hfilter.symm)
    exact ⟨result, pool', cs', congrArg some hpool', hcs', hobtains⟩

/-- Every call keeps the invariant. -/
theorem ClientPool.Holds.of_obtains (h : pool.Holds cs) {cs' : List (GrpcClient ℕ)}
    {result : Except Error (GrpcClient ℕ)}
    (helements : pool'.grpcClients.elements = cs'.map some)
    (hobtains : pool.Obtains cs call result pool' cs') : pool'.Holds cs' := by
  have hfilter : (cs.filter fun c => c.cfg.url ≠ call.cfg.url).Sublist cs := List.filter_sublist
  cases hobtains with
  | found _ _ _ => exact h
  | failed _ hrest hcreated _ =>
      exact {
        elements := helements
        nodup_urls := (hrest.map _).nodup_iff.mpr (h.nodup_urls.sublist (hfilter.map _))
        nodup_conns := (hrest.map _).nodup_iff.mpr (h.nodup_conns.sublist (hfilter.map _))
        conn_lt := fun c hc => hcreated ▸ h.conn_lt c (hfilter.subset (hrest.mem_iff.mp hc)) }
  | @created _ rest _ hrest hcreated _ =>
      have hold : ∀ c ∈ rest, c ∈ cs ∧ c.cfg.url ≠ call.cfg.url := fun c hc => by
        simpa using hrest.mem_iff.mp hc
      refine ⟨helements, ?_, ?_, fun c hc => ?_⟩
      · rw [urls, List.map_append, List.nodup_append]
        refine ⟨(hrest.map _).nodup_iff.mpr (h.nodup_urls.sublist (hfilter.map _)),
          List.nodup_singleton _, fun url hurl url' hurl' => ?_⟩
        obtain ⟨c, hc, rfl⟩ := List.mem_map.mp hurl
        rw [List.mem_singleton.mp hurl']
        exact (hold c hc).2
      · rw [List.map_append, List.nodup_append]
        refine ⟨(hrest.map _).nodup_iff.mpr (h.nodup_conns.sublist (hfilter.map _)),
          List.nodup_singleton _, fun conn hconn conn' hconn' => ?_⟩
        obtain ⟨c, hc, rfl⟩ := List.mem_map.mp hconn
        rw [List.mem_singleton.mp hconn']
        exact Nat.ne_of_lt (h.conn_lt c (hold c hc).1)
      · rw [hcreated]
        rcases List.mem_append.mp hc with hc | hc
        · exact Nat.lt_succ_of_lt (h.conn_lt c (hold c hc).1)
        · rw [List.mem_singleton.mp hc]
          exact Nat.lt_succ_self _

theorem ClientPool.Holds.serves (h : pool.Holds cs) {cs' : List (GrpcClient ℕ)}
    {result : Except Error (GrpcClient ℕ)} (h' : pool'.Holds cs')
    (hobtains : pool.Obtains cs call result pool' cs') : pool.Serves call result pool' := by
  constructor
  · intro c hc hc'
    rw [h.contains_iff] at hc
    rw [h'.contains_iff] at hc'
    rw [← reusable_eq_true_iff, Bool.not_eq_true]
    cases hobtains with
    | found _ _ _ => exact absurd hc hc'
    | failed hunusable hrest _ _ =>
        have hurl : c.cfg.url = call.cfg.url := by
          simpa [hc] using mt hrest.mem_iff.mpr hc'
        exact ⟨hurl, hunusable c hc hurl⟩
    | created hunusable hrest _ _ =>
        have hurl : c.cfg.url = call.cfg.url := by
          simpa [hc] using mt hrest.mem_iff.mpr fun hmem => hc' (List.mem_append_left _ hmem)
        exact ⟨hurl, hunusable c hc hurl⟩
  · intro c hresult
    rw [h.contains_iff, h'.contains_iff, ← reusable_eq_true_iff]
    cases hobtains with
    | found hmem hurl hreusable =>
        obtain rfl := Except.ok.inj hresult
        exact ⟨hmem, hurl, fun _ => hreusable⟩
    | failed _ _ _ _ => cases hresult
    | created _ _ _ _ =>
        obtain rfl := Except.ok.inj hresult
        refine ⟨List.mem_append_right _ (List.mem_singleton_self _), rfl, fun hold => ?_⟩
        exact absurd (h.conn_lt _ hold) (Nat.lt_irrefl _)

theorem ClientPool.Holds.step (h : pool.Holds cs) (call : Obtain) :
    ∃ result pool' cs', pool.step call = some pool' ∧ pool'.Holds cs' ∧
      pool.Obtains cs call result pool' cs' := by
  obtain ⟨result, pool', cs', hcall, -, helements, hobtains⟩ := h.obtains call
  refine ⟨result, pool', cs', ?_, h.of_obtains helements hobtains, hobtains⟩
  rw [ClientPool.step, hcall, Option.map_some]

/-- No call panics. -/
theorem ClientPool.exists_exec (calls : List Obtain) :
    ∃ pool cs, exec ClientPool.step .initial calls = some pool ∧ pool.Holds cs := by
  suffices ∀ (pool : ClientPool) cs, pool.Holds cs →
      ∃ pool' cs', exec ClientPool.step pool calls = some pool' ∧ pool'.Holds cs' from
    this .initial [] holds_initial
  induction calls with
  | nil => exact fun pool cs h => ⟨pool, cs, rfl, h⟩
  | cons call calls ih =>
      intro pool cs h
      obtain ⟨_, next, cs', hstep, h', -⟩ := h.step call
      obtain ⟨pool', cs'', hexec, h''⟩ := ih next cs' h'
      refine ⟨pool', cs'', ?_, h''⟩
      rw [exec, hstep, Option.bind_some, hexec]

/-- After any calls, the next one returns a client of the pool that can be used, and takes out
only one for its address that cannot. -/
theorem client_pool_serves_every_call (calls : List Obtain) (call : Obtain) :
    ∃ pool result pool', exec ClientPool.step .initial calls = some pool ∧
      pool.obtainGRPCClient call = some (result, pool') ∧ pool.WellFormed ∧ pool'.WellFormed ∧
      pool.Serves call result pool' := by
  obtain ⟨pool, cs, hexec, h⟩ := ClientPool.exists_exec calls
  obtain ⟨result, pool', cs', hcall, -, helements, hobtains⟩ := h.obtains call
  have h' : pool'.Holds cs' := h.of_obtains helements hobtains
  exact ⟨pool, result, pool', hexec, hcall, h.wellFormed, h'.wellFormed, h.serves h' hobtains⟩

/-- There is no client for the address, or it can be used. -/
theorem ClientPool.Holds.keeps_iff (h : pool.Holds cs) : pool.Keeps call ↔
    ∀ c ∈ cs, c.cfg.url = call.cfg.url → (call.round.getState c.conn).reusable = true := by
  simp only [ClientPool.Keeps, h.contains_iff]

theorem ClientPool.Holds.accounted_iff (h : pool.Holds cs) (hclosed : pool.closed = []) :
    pool.Accounted ↔ ∀ conn < pool.created, ∃ c ∈ cs, c.conn = conn := by
  simp [ClientPool.Accounted, h.contains_iff, hclosed]

theorem ClientPool.Obtains.closed_eq {cs' : List (GrpcClient ℕ)}
    {result : Except Error (GrpcClient ℕ)} (h : pool.Obtains cs call result pool' cs') :
    pool'.closed = pool.closed := by
  cases h with
  | found _ _ _ => rfl
  | failed _ _ _ hclosed => exact hclosed
  | created _ _ _ hclosed => exact hclosed

/-- A call that keeps the clients keeps track of the connections. -/
theorem ClientPool.Obtains.accounted {cs' : List (GrpcClient ℕ)}
    {result : Except Error (GrpcClient ℕ)} (h : pool.Holds cs) (h' : pool'.Holds cs')
    (hclosed : pool.closed = []) (haccounted : pool.Accounted) (hkeeps : pool.Keeps call)
    (hobtains : pool.Obtains cs call result pool' cs') : pool'.Accounted := by
  have hclosed' : pool'.closed = [] := hobtains.closed_eq.trans hclosed
  rw [h.accounted_iff hclosed] at haccounted
  rw [h'.accounted_iff hclosed']
  rw [h.keeps_iff] at hkeeps
  have hrest : ∀ rest : List (GrpcClient ℕ),
      (∀ c ∈ cs, c.cfg.url = call.cfg.url → (call.round.getState c.conn).reusable = false) →
      rest.Perm (cs.filter fun c => c.cfg.url ≠ call.cfg.url) → ∀ c ∈ cs, c ∈ rest := by
    intro rest hunusable hperm c hc
    have hurl : c.cfg.url ≠ call.cfg.url := by
      intro hurl
      have hreusable := hkeeps c hc hurl
      rw [hunusable c hc hurl] at hreusable
      cases hreusable
    exact hperm.mem_iff.mpr (List.mem_filter.mpr ⟨hc, decide_eq_true hurl⟩)
  cases hobtains with
  | found _ _ _ => exact haccounted
  | failed hunusable hperm hcreated _ =>
      intro conn hconn
      obtain ⟨c, hc, rfl⟩ := haccounted conn (hcreated ▸ hconn)
      exact ⟨c, hrest _ hunusable hperm c hc, rfl⟩
  | created hunusable hperm hcreated _ =>
      intro conn hconn
      rw [hcreated] at hconn
      rcases Nat.lt_succ_iff_lt_or_eq.mp hconn with hconn | rfl
      · obtain ⟨c, hc, rfl⟩ := haccounted conn hconn
        exact ⟨c, List.mem_append_left _ (hrest _ hunusable hperm c hc), rfl⟩
      · exact ⟨_, List.mem_append_right _ (List.mem_singleton_self _), rfl⟩

/-- The connection of a client that is taken out is lost. -/
theorem ClientPool.Obtains.not_accounted {cs' : List (GrpcClient ℕ)}
    {result : Except Error (GrpcClient ℕ)} (h : pool.Holds cs) (h' : pool'.Holds cs')
    (hclosed : pool.closed = []) (hkeeps : ¬ pool.Keeps call)
    (hobtains : pool.Obtains cs call result pool' cs') : ¬ pool'.Accounted := by
  have hclosed' : pool'.closed = [] := hobtains.closed_eq.trans hclosed
  rw [h'.accounted_iff hclosed']
  rw [h.keeps_iff] at hkeeps
  push Not at hkeeps
  obtain ⟨c, hc, hurl, hunusable⟩ := hkeeps
  intro haccounted
  have hlost : ∀ rest : List (GrpcClient ℕ),
      rest.Perm (cs.filter fun c => c.cfg.url ≠ call.cfg.url) →
      ∀ c' ∈ rest, c'.conn ≠ c.conn := by
    intro rest hperm c' hc' hconn
    obtain ⟨hmem, hurl'⟩ := List.mem_filter.mp (hperm.mem_iff.mp hc')
    obtain rfl : c' = c := List.inj_on_of_nodup_map h.nodup_conns hmem hc hconn
    exact of_decide_eq_true hurl' hurl
  cases hobtains with
  | found hmem hurl' hreusable =>
      obtain rfl := List.inj_on_of_nodup_map h.nodup_urls hmem hc (hurl'.trans hurl.symm)
      exact hunusable hreusable
  | failed _ hperm hcreated _ =>
      obtain ⟨c', hc', hconn⟩ := haccounted c.conn (hcreated ▸ h.conn_lt c hc)
      exact hlost _ hperm c' hc' hconn
  | created _ hperm hcreated _ =>
      obtain ⟨c', hc', hconn⟩ :=
        haccounted c.conn (hcreated ▸ Nat.lt_succ_of_lt (h.conn_lt c hc))
      rcases List.mem_append.mp hc' with hc' | hc'
      · exact hlost _ hperm c' hc' hconn
      · rw [List.mem_singleton.mp hc'] at hconn
        exact Nat.ne_of_gt (h.conn_lt c hc) hconn

/-- The loop ends, and only adds to what is closed. -/
theorem closeClients_map_some (close : ℕ → Option Error) (cs : List (GrpcClient ℕ))
    (closed : List ℕ) :
    ∃ err closed', closeClients close (cs.map some) closed = some (err, closed') ∧
      closed ⊆ closed' := by
  induction cs generalizing closed with
  | nil => exact ⟨none, closed, rfl, fun _ h => h⟩
  | cons c cs ih =>
      rw [List.map_cons, closeClients]
      cases close c.conn with
      | some err => exact ⟨_, _, rfl, List.subset_append_left _ _⟩
      | none =>
          obtain ⟨err, closed', hclose, hsubset⟩ := ih (closed ++ [c.conn])
          exact ⟨err, closed', hclose, List.Subset.trans (List.subset_append_left _ _) hsubset⟩

/-- The loop reaches every connection exactly if it can close all of them but the last. -/
theorem closeClients_all_iff {close : ℕ → Option Error} {closed closed' : List ℕ}
    {err : Option Error} (hnodup : (cs.map GrpcClient.conn).Nodup)
    (hopen : ∀ c ∈ cs, c.conn ∉ closed)
    (hclose : closeClients close (cs.map some) closed = some (err, closed')) :
    (∀ c ∈ cs, c.conn ∈ closed') ↔ ∀ c ∈ cs.dropLast, close c.conn = none := by
  induction cs generalizing closed with
  | nil => simp
  | cons c cs ih =>
      rw [List.map_cons, List.nodup_cons] at hnodup
      rw [List.map_cons, closeClients] at hclose
      have hdropLast : (∀ c' ∈ (c :: cs).dropLast, close c'.conn = none) ↔
          (cs = [] ∨ close c.conn = none) ∧ ∀ c' ∈ cs.dropLast, close c'.conn = none := by
        cases cs with
        | nil => simp
        | cons c' cs => simp
      rw [hdropLast, List.forall_mem_cons]
      have hne : ∀ c' ∈ cs, c'.conn ≠ c.conn := fun c' hc' hconn =>
        hnodup.1 (List.mem_map.mpr ⟨c', hc', hconn⟩)
      cases hc : close c.conn with
      | some err' =>
          simp only [hc, Option.some.injEq, Prod.mk.injEq] at hclose
          obtain ⟨-, rfl⟩ := hclose
          cases cs with
          | nil => simp
          | cons c' cs =>
              have hmem : c' ∈ c' :: cs := List.mem_cons_self
              have hlost : c'.conn ∉ closed ++ [c.conn] := by
                simp [hopen c' (List.mem_cons_of_mem _ hmem), hne c' hmem]
              refine iff_of_false (fun h => hlost (h.2 c' hmem)) (fun h => ?_)
              simp at h
      | none =>
          simp only [hc] at hclose
          have hopen' : ∀ c' ∈ cs, c'.conn ∉ closed ++ [c.conn] := fun c' hc' => by
            simp [hopen c' (List.mem_cons_of_mem _ hc'), hne c' hc']
          obtain ⟨err', closed'', hclose', hsubset⟩ :=
            closeClients_map_some close cs (closed ++ [c.conn])
          have hfirst : c.conn ∈ closed' := by
            rw [hclose] at hclose'
            obtain ⟨-, rfl⟩ := Prod.mk.inj (Option.some.inj hclose')
            exact hsubset (List.mem_append_right _ (List.mem_singleton_self _))
          rw [ih hnodup.2 hopen' hclose]
          simp [hfirst]

theorem ClientPool.Holds.allClosed_iff (h : pool.Holds cs) (hclosed : pool.closed = [])
    (haccounted : pool.Accounted) (close : ℕ → Option Error) (amqpClose : Option Error) :
    (∃ err pool', pool.shutdown close amqpClose = some (err, pool') ∧ pool'.AllClosed) ↔
      ∀ c ∈ cs.dropLast, close c.conn = none := by
  rw [h.accounted_iff hclosed] at haccounted
  obtain ⟨err, closed', hclose, -⟩ := closeClients_map_some close cs []
  rw [← closeClients_all_iff h.nodup_conns (fun _ _ => List.not_mem_nil) hclose]
  have hshutdown : pool.shutdown close amqpClose =
      some (err.or amqpClose, { pool with closed := closed' }) := by
    rw [ClientPool.shutdown, h.elements, hclosed, hclose, Option.map_some]
  rw [hshutdown]
  constructor
  · rintro ⟨_, _, heq, hall⟩ c hc
    obtain ⟨-, rfl⟩ := Prod.mk.inj (Option.some.inj heq)
    exact hall c.conn (h.conn_lt c hc)
  · intro hall
    refine ⟨_, _, rfl, fun conn hconn => ?_⟩
    obtain ⟨c, hc, rfl⟩ := haccounted conn hconn
    exact hall c hc

end

/-- Every connection is in the pool or closed at any time, and a shutdown closes all of them,
exactly if no call takes a client out of the pool and the shutdown fails at the last client or
at none. -/
theorem connections_closed_iff (calls : List Obtain) (close : ℕ → Option Error)
    (amqpClose : Option Error) :
    (Along ClientPool.step ClientPool.Accounted .initial calls ∧
      ∃ pool err pool', exec ClientPool.step .initial calls = some pool ∧
        pool.shutdown close amqpClose = some (err, pool') ∧ pool'.AllClosed) ↔
    Guarded ClientPool.step ClientPool.Keeps .initial calls ∧
      ∀ pool, exec ClientPool.step .initial calls = some pool →
        ∀ c ∈ pool.clients.dropLast, close c.conn = none := by
  have hstep : ∀ (pool : ClientPool) (call : Obtain) (pool' : ClientPool),
      (∃ cs, pool.Holds cs) ∧ pool.closed = [] → pool.step call = some pool' →
      (∃ cs, pool'.Holds cs) ∧ pool'.closed = [] := by
    rintro pool call pool' ⟨⟨cs, h⟩, hclosed⟩ hpool'
    obtain ⟨_, next, cs', hnext, h', hobtains⟩ := h.step call
    obtain rfl := Option.some.inj (hnext.symm.trans hpool')
    exact ⟨⟨cs', h'⟩, hobtains.closed_eq.trans hclosed⟩
  have hinitial : (∃ cs, ClientPool.initial.Holds cs) ∧ ClientPool.initial.closed = [] :=
    ⟨⟨[], ClientPool.holds_initial⟩, rfl⟩
  have haccounted : Along ClientPool.step ClientPool.Accounted .initial calls ↔
      Guarded ClientPool.step ClientPool.Keeps .initial calls := by
    apply along_iff_guarded hstep
    · rintro pool call pool' ⟨⟨cs, h⟩, hclosed⟩ hacc hkeeps hpool'
      obtain ⟨_, next, cs', hnext, h', hobtains⟩ := h.step call
      obtain rfl := Option.some.inj (hnext.symm.trans hpool')
      exact hobtains.accounted h h' hclosed hacc hkeeps
    · rintro pool call pool' ⟨⟨cs, h⟩, hclosed⟩ - hkeeps hpool'
      obtain ⟨_, next, cs', hnext, h', hobtains⟩ := h.step call
      obtain rfl := Option.some.inj (hnext.symm.trans hpool')
      exact hobtains.not_accounted h h' hclosed hkeeps
    · exact hinitial
    · exact fun conn hconn => absurd hconn (Nat.not_lt_zero conn)
  rw [haccounted]
  refine and_congr_right fun hguarded => ?_
  obtain ⟨pool, cs, hexec, h⟩ := ClientPool.exists_exec calls
  have hclosed : pool.closed = [] :=
    ((along_of_invariant hstep hinitial calls).exec_eq hexec).2
  have hall := h.allClosed_iff hclosed ((haccounted.mpr hguarded).exec_eq hexec) close amqpClose
  simp only [hexec, Option.some.injEq, exists_eq_left', forall_eq', h.clients_eq, exists_and_left]
  simpa using hall

/-! One address, and a connection that is lost between two calls. -/

def lostRound (state : ConnectivityState) : Round ℕ where
  body := []
  getState := fun _ => state
  systemCertPool := none
  dial := fun _ => .ok 0
  rpc := fun _ => .ok .ok

def lostCalls : List Obtain :=
  [⟨⟨"adapter:4384", false, ""⟩, lostRound .ready⟩,
    ⟨⟨"adapter:4384", false, ""⟩, lostRound .transientFailure⟩]

theorem not_closed_lost_connection :
    ¬ ∀ (calls : List Obtain) (close : ℕ → Option Error) (amqpClose : Option Error),
      Along ClientPool.step ClientPool.Accounted .initial calls ∧
        ∃ pool err pool', exec ClientPool.step .initial calls = some pool ∧
          pool.shutdown close amqpClose = some (err, pool') ∧ pool'.AllClosed := by
  intro h
  obtain ⟨-, pool, err, pool', hexec, hshutdown, hall⟩ :=
    h lostCalls (fun _ => none) none
  have hend : exec ClientPool.step .initial lostCalls = some
      ⟨⟨[some ⟨⟨"adapter:4384", false, ""⟩, 1⟩], 1, Nat.le_refl _⟩, 2, []⟩ := rfl
  obtain rfl := Option.some.inj (hend.symm.trans hexec)
  obtain ⟨-, rfl⟩ := Prod.mk.inj (Option.some.inj hshutdown)
  have hmem : 0 ∈ [1] := hall 0 (by decide)
  exact absurd hmem (by decide)

end I40Aas.GrpcEgress
