import Mathlib.Data.List.Nodup
import Mathlib.Data.List.Perm.Basic
import I40Aas.GrpcEgress.Egress
import I40Aas.GrpcIngress.Consumer

/-!
The clients of the gRPC egress. There is never more than one for an address: a client in a bad
state is taken out of the slice before a new one is made. What connections, the certificate
pool and the remote calls do while a delivery is handled is given with it.
-/

namespace I40Aas.GrpcEgress

open I40Aas.Interaction I40Aas.GrpcIngress

inductive ConnectivityState
  | idle
  | connecting
  | ready
  | transientFailure
  | shutdown
  deriving DecidableEq

/-- `κ` are the connections. -/
structure GrpcClient (κ : Type) where
  cfg : GRPCClientConfig
  conn : κ

/-- A delivery, and what it meets outside of the egress. -/
structure Round (κ : Type) where
  body : List UInt8
  getState : κ → ConnectivityState
  /-- The error of `x509.SystemCertPool`, if there is one. -/
  systemCertPool : Option Error
  dial : GRPCClientConfig → Except Error κ
  /-- The outcome of each attempt of the remote call. -/
  rpc : ℕ → Except Error InteractionStatusCode

variable {κ : Type}

def newGRPCClient (round : Round κ) (cfg : GRPCClientConfig) : Except Error (GrpcClient κ) :=
  if cfg.url = "" then .error (.errorf "URL has not been specified")
  else
    match cfg.tlsEnabled, round.systemCertPool with
    | true, some err => .error err
    | _, _ =>
        match round.dial cfg with
        | .error err => .error err
        | .ok conn => .ok { cfg := cfg, conn := conn }

def ConnectivityState.reusable : ConnectivityState → Bool
  | ready | connecting | idle => true
  | transientFailure | shutdown => false

/-- The last element takes the place of the one at the index. -/
def swapRemove {α : Type} (l : List α) (i : ℕ) : List α :=
  match l.getLast? with
  | some last => (l.set i last).dropLast
  | none => []

/-- The end of `obtainGRPCClient`: a new client is appended. -/
def appendGRPCClient (round : Round κ) (grpcClients : List (GrpcClient κ))
    (cfg : GRPCClientConfig) : Except Error (GrpcClient κ) × List (GrpcClient κ) :=
  match newGRPCClient round cfg with
  | .error err => (.error err, grpcClients)
  | .ok c => (.ok c, grpcClients ++ [c])

/-- The client, and the slice afterwards. -/
def obtainGRPCClient (round : Round κ) (grpcClients : List (GrpcClient κ))
    (cfg : GRPCClientConfig) : Except Error (GrpcClient κ) × List (GrpcClient κ) :=
  match grpcClients.zipIdx.find? fun ci => ci.1.cfg.url = cfg.url with
  | none => appendGRPCClient round grpcClients cfg
  | some (c, i) =>
      if (round.getState c.conn).reusable then (.ok c, grpcClients)
      else appendGRPCClient round (swapRemove grpcClients i) cfg

def maxAttempts : ℕ := 10

/-- `attempt` is how often the backoff has given a duration. -/
def sendInteractionMessage (rpc : ℕ → Except Error InteractionStatusCode) (attempt : ℕ) :
    Except Error InteractionStatusCode :=
  match rpc attempt with
  | .ok status => .ok status
  | .error err =>
      if maxAttempts < attempt + 1 then .error err
      else sendInteractionMessage rpc (attempt + 1)
termination_by maxAttempts - attempt
decreasing_by omega

def urls (grpcClients : List (GrpcClient κ)) : List String :=
  grpcClients.map fun c => c.cfg.url

/-- There is a client for the address that can be used again, or a new one can be made. -/
def Available (round : Round κ) (grpcClients : List (GrpcClient κ)) (cfg : GRPCClientConfig) :
    Prop :=
  (∃ c ∈ grpcClients, c.cfg.url = cfg.url ∧ (round.getState c.conn).reusable = true) ∨
    (cfg.url ≠ "" ∧ (cfg.tlsEnabled = true → round.systemCertPool = none) ∧
      ∃ conn, round.dial cfg = .ok conn)

/-- A message that is sent was taken by one of the attempts. -/
theorem sendInteractionMessage_ok {rpc : ℕ → Except Error InteractionStatusCode} {attempt : ℕ}
    {status : InteractionStatusCode} (h : sendInteractionMessage rpc attempt = .ok status) :
    ∃ k, rpc k = .ok status := by
  fun_induction sendInteractionMessage rpc attempt with
  | case1 attempt status' hrpc =>
      obtain rfl := Except.ok.inj h
      exact ⟨attempt, hrpc⟩
  | case2 attempt err hrpc hmax => cases h
  | case3 attempt err hrpc hmax ih => exact ih h

theorem swapRemove_perm {α : Type} {l : List α} {i : ℕ} (hi : i < l.length) :
    (swapRemove l i).Perm (l.eraseIdx i) := by
  obtain rfl | ⟨front, last, rfl⟩ := l.eq_nil_or_concat
  · cases hi
  · rw [List.concat_eq_append] at hi ⊢
    rw [List.length_append, List.length_singleton] at hi
    rw [swapRemove, List.getLast?_concat]
    show ((front ++ [last]).set i last).dropLast.Perm _
    by_cases hfront : i < front.length
    · rw [List.set_append_left _ _ hfront, List.dropLast_concat,
        List.eraseIdx_append_of_lt_length hfront]
      exact (List.set_perm_cons_eraseIdx hfront last).trans
        (List.perm_append_singleton last _).symm
    · have hlast : i = front.length := by omega
      rw [hlast, List.set_append_right _ _ (Nat.le_refl _),
        List.eraseIdx_append_of_length_le (Nat.le_refl _), Nat.sub_self]
      simp

section

variable {round : Round κ} {grpcClients : List (GrpcClient κ)} {cfg : GRPCClientConfig}

theorem cfg_of_newGRPCClient {c : GrpcClient κ} (h : newGRPCClient round cfg = .ok c) :
    c.cfg = cfg := by
  unfold newGRPCClient at h
  split at h
  · cases h
  · split at h
    · cases h
    · split at h
      · cases h
      · obtain rfl := Except.ok.inj h
        rfl

theorem newGRPCClient_ok_iff : (∃ c, newGRPCClient round cfg = .ok c) ↔
    cfg.url ≠ "" ∧ (cfg.tlsEnabled = true → round.systemCertPool = none) ∧
      ∃ conn, round.dial cfg = .ok conn := by
  unfold newGRPCClient
  by_cases hurl : cfg.url = ""
  · simp [hurl]
  · cases htls : cfg.tlsEnabled <;> cases hpool : round.systemCertPool <;>
      cases hdial : round.dial cfg <;> simp [hurl]

theorem appendGRPCClient_ok_iff (cs : List (GrpcClient κ)) :
    (∃ c cs', appendGRPCClient round cs cfg = (.ok c, cs')) ↔
      ∃ c, newGRPCClient round cfg = .ok c := by
  unfold appendGRPCClient
  cases newGRPCClient round cfg <;> simp

/-- What the search for the address gives. -/
theorem find_url_cases (grpcClients : List (GrpcClient κ)) (cfg : GRPCClientConfig) :
    (∃ c i, (grpcClients.zipIdx.find? fun ci => ci.1.cfg.url = cfg.url) = some (c, i) ∧
      c ∈ grpcClients ∧ c.cfg.url = cfg.url ∧ grpcClients[i]? = some c) ∨
    ((grpcClients.zipIdx.find? fun ci => ci.1.cfg.url = cfg.url) = none ∧
      ∀ c ∈ grpcClients, c.cfg.url ≠ cfg.url) := by
  cases hfind : grpcClients.zipIdx.find? fun ci => ci.1.cfg.url = cfg.url with
  | some ci =>
      obtain ⟨c, i⟩ := ci
      have hurl : c.cfg.url = cfg.url := by
        simpa using List.find?_some hfind
      have hget := List.mem_zipIdx_iff_getElem?.mp (List.mem_of_find?_eq_some hfind)
      exact .inl ⟨c, i, rfl, List.mem_of_getElem? hget, hurl, hget⟩
  | none =>
      refine .inr ⟨rfl, fun c hc => ?_⟩
      obtain ⟨i, hi⟩ := List.getElem?_of_mem hc
      have hmem : (c, i) ∈ grpcClients.zipIdx := List.mem_zipIdx_iff_getElem?.mpr hi
      simpa using List.find?_eq_none.mp hfind (c, i) hmem

/-- A client is obtained exactly if one is available, as long as there is one for each
address. -/
theorem obtainGRPCClient_ok_iff (hurls : (urls grpcClients).Nodup) :
    (∃ c cs, obtainGRPCClient round grpcClients cfg = (.ok c, cs)) ↔
      Available round grpcClients cfg := by
  unfold obtainGRPCClient
  rcases find_url_cases grpcClients cfg with
    ⟨c, i, hfind, hmem, hurl, -⟩ | ⟨hfind, hnone⟩
  · rw [hfind]
    simp only
    split
    · rename_i hreusable
      exact iff_of_true ⟨c, grpcClients, rfl⟩ (.inl ⟨c, hmem, hurl, hreusable⟩)
    · rename_i hreusable
      rw [appendGRPCClient_ok_iff, newGRPCClient_ok_iff, Available]
      refine (or_iff_right ?_).symm
      rintro ⟨c', hmem', hurl', hreusable'⟩
      have heq : c' = c := List.inj_on_of_nodup_map hurls hmem' hmem (hurl'.trans hurl.symm)
      rw [heq] at hreusable'
      exact hreusable hreusable'
  · rw [hfind]
    simp only
    rw [appendGRPCClient_ok_iff, newGRPCClient_ok_iff, Available]
    refine (or_iff_right ?_).symm
    rintro ⟨c, hmem, hurl, -⟩
    exact hnone c hmem hurl

/-- What a call can do: give the client it found, or make a new one beside the clients for
other addresses. -/
inductive Obtained (round : Round κ) (grpcClients : List (GrpcClient κ))
    (cfg : GRPCClientConfig) : Except Error (GrpcClient κ) × List (GrpcClient κ) → Prop
  | found {c : GrpcClient κ} : c ∈ grpcClients → c.cfg.url = cfg.url →
      (round.getState c.conn).reusable = true → Obtained round grpcClients cfg (.ok c, grpcClients)
  | appended {rest : List (GrpcClient κ)} :
      (∀ c ∈ grpcClients, c.cfg.url = cfg.url → (round.getState c.conn).reusable = false) →
      rest.Perm (grpcClients.filter fun c => c.cfg.url ≠ cfg.url) →
      Obtained round grpcClients cfg (appendGRPCClient round rest cfg)

/-- Without the element at the index there are only the clients for other addresses. -/
theorem swapRemove_perm_filter (hurls : (urls grpcClients).Nodup) {c : GrpcClient κ} {i : ℕ}
    (hget : grpcClients[i]? = some c) (hurl : c.cfg.url = cfg.url) :
    (swapRemove grpcClients i).Perm (grpcClients.filter fun c => c.cfg.url ≠ cfg.url) := by
  obtain ⟨hi, rfl⟩ := List.getElem?_eq_some_iff.mp hget
  have hperm : (grpcClients[i] :: grpcClients.eraseIdx i).Perm grpcClients :=
    List.getElem_cons_eraseIdx_perm hi
  have hnodup : (urls (grpcClients[i] :: grpcClients.eraseIdx i)).Nodup :=
    (hperm.map _).nodup_iff.mpr hurls
  have hothers : ∀ c ∈ grpcClients.eraseIdx i, c.cfg.url ≠ cfg.url := by
    intro c hmem hurl'
    exact (List.nodup_cons.mp hnodup).1
      (List.mem_map.mpr ⟨c, hmem, hurl'.trans hurl.symm⟩)
  have hfilter := hperm.filter fun c => c.cfg.url ≠ cfg.url
  rw [List.filter_cons_of_neg (by simp [hurl]),
    List.filter_eq_self.mpr fun c hc => decide_eq_true (hothers c hc)] at hfilter
  exact (swapRemove_perm hi).trans hfilter

theorem obtained_obtainGRPCClient (hurls : (urls grpcClients).Nodup) :
    Obtained round grpcClients cfg (obtainGRPCClient round grpcClients cfg) := by
  unfold obtainGRPCClient
  rcases find_url_cases grpcClients cfg with
    ⟨c, i, hfind, hmem, hurl, hget⟩ | ⟨hfind, hnone⟩
  · rw [hfind]
    simp only
    split
    · rename_i hreusable
      exact .found hmem hurl hreusable
    · rename_i hreusable
      refine .appended (fun c' hmem' hurl' => ?_) (swapRemove_perm_filter hurls hget hurl)
      obtain rfl : c' = c := List.inj_on_of_nodup_map hurls hmem' hmem (hurl'.trans hurl.symm)
      exact Bool.eq_false_iff.mpr hreusable
  · rw [hfind]
    refine .appended (fun c hc hurl => absurd hurl (hnone c hc)) ?_
    rw [List.filter_eq_self.mpr fun c hc => decide_eq_true (hnone c hc)]

theorem nodup_urls_appendGRPCClient {cs : List (GrpcClient κ)} (hurls : (urls cs).Nodup)
    (hnone : ∀ c ∈ cs, c.cfg.url ≠ cfg.url) :
    (urls (appendGRPCClient round cs cfg).2).Nodup := by
  unfold appendGRPCClient
  split
  · exact hurls
  · rename_i c hc
    rw [urls, List.map_append, List.map_singleton, cfg_of_newGRPCClient hc]
    refine List.nodup_append.mpr ⟨hurls, List.nodup_singleton _, ?_⟩
    intro url hurl url' hurl'
    obtain ⟨c', hmem, rfl⟩ := List.mem_map.mp hurl
    rw [List.mem_singleton.mp hurl']
    exact hnone c' hmem

/-- There is still one client for each address afterwards. -/
theorem nodup_urls_obtainGRPCClient (hurls : (urls grpcClients).Nodup) :
    (urls (obtainGRPCClient round grpcClients cfg).2).Nodup := by
  have hobtained : Obtained round grpcClients cfg (obtainGRPCClient round grpcClients cfg) :=
    obtained_obtainGRPCClient hurls
  generalize obtainGRPCClient round grpcClients cfg = obtained at hobtained ⊢
  cases hobtained with
  | found _ _ _ => exact hurls
  | @appended rest _ hrest =>
      have hnodup : (urls (grpcClients.filter fun c => c.cfg.url ≠ cfg.url)).Nodup :=
        hurls.sublist (List.filter_sublist.map _)
      refine nodup_urls_appendGRPCClient ((hrest.map _).nodup_iff.mpr hnodup) ?_
      intro c hc
      exact of_decide_eq_true (List.mem_filter.mp (hrest.mem_iff.mp hc)).2

end

end I40Aas.GrpcEgress
