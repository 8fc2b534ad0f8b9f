import I40Aas.Lib.Json.Syntax

/-!
Objects as maps: a list of members that is sorted by key. Assigning the members of
a text in their order keeps the last one of each name.
-/

namespace I40Aas.Lib.Json

variable {N : Type}

/-- `m[k] = v`. -/
def setMember (k : String) (v : Json N) : List (String × Json N) → List (String × Json N)
  | [] => [(k, v)]
  | (k', v') :: ms =>
    if k < k' then (k, v) :: (k', v') :: ms
    else if k = k' then (k, v) :: ms
    else (k', v') :: setMember k v ms

/-- The members are assigned in their order, so the last one of a name is kept. -/
def ofMembers (ms : List (String × Json N)) : List (String × Json N) :=
  ms.foldl (fun m kv => setMember kv.1 kv.2 m) []

/-- `m[k]`, which is nil for a key that is not there. -/
def index (ms : List (String × Json N)) (k : String) : Json N :=
  (ms.lookup k).getD .null

def Sorted (ms : List (String × Json N)) : Prop :=
  ms.Pairwise fun m m' => m.1 < m'.1

theorem sorted_pair {k k' : String} (h : k < k') (v w : Json N) :
    Sorted [(k, v), (k', w)] := by
  refine List.pairwise_cons.2 ⟨?_, List.pairwise_singleton _ _⟩
  intro m hm
  rw [List.mem_singleton.1 hm]
  exact h

theorem mem_setMember {k : String} {v : Json N} {ms : List (String × Json N)}
    {m : String × Json N} (h : m ∈ setMember k v ms) : m = (k, v) ∨ m ∈ ms := by
  induction ms with
  | nil => simpa [setMember] using h
  | cons m' ms ih =>
      unfold setMember at h
      grind

theorem setMember_sorted {ms : List (String × Json N)} (h : Sorted ms) (k : String)
    (v : Json N) : Sorted (setMember k v ms) := by
  induction ms with
  | nil => simp [setMember, Sorted]
  | cons m ms ih =>
      obtain ⟨k', v'⟩ := m
      obtain ⟨hhead, htail⟩ := List.pairwise_cons.1 h
      unfold setMember
      split
      next hlt =>
        refine List.pairwise_cons.2 ⟨fun m hm => ?_, h⟩
        cases hm with
        | head => exact hlt
        | tail _ hm => exact String.lt_trans hlt (hhead m hm)
      next hnlt =>
      split
      next heq => subst heq; exact List.pairwise_cons.2 ⟨hhead, htail⟩
      next hne =>
        refine List.pairwise_cons.2 ⟨fun m hm => ?_, ih htail⟩
        have hlt : k' < k := by
          by_contra hge
          exact hne (String.le_antisymm (String.not_lt.1 hge) (String.not_lt.1 hnlt))
        cases mem_setMember hm with
        | inl hm => subst hm; exact hlt
        | inr hm => exact hhead m hm

theorem ofMembers_sorted (ms : List (String × Json N)) : Sorted (ofMembers ms) := by
  suffices h : ∀ m, Sorted m → Sorted (ms.foldl (fun m kv => setMember kv.1 kv.2 m) m) from
    h [] List.Pairwise.nil
  induction ms with
  | nil => exact fun m hm => hm
  | cons kv ms ih => exact fun m hm => ih _ (setMember_sorted hm kv.1 kv.2)

theorem setMember_last {k : String} {v : Json N} {ms : List (String × Json N)}
    (h : ∀ m ∈ ms, m.1 < k) : setMember k v ms = ms ++ [(k, v)] := by
  induction ms with
  | nil => rfl
  | cons m ms ih =>
      have hlt := h m List.mem_cons_self
      have hne : k ≠ m.1 := by
        rintro rfl
        exact String.lt_irrefl _ hlt
      rw [setMember, if_neg (String.lt_asymm hlt), if_neg hne,
        ih fun m' hm' => h m' (List.mem_cons_of_mem _ hm')]
      rfl

theorem ofMembers_of_sorted {ms : List (String × Json N)} (h : Sorted ms) :
    ofMembers ms = ms := by
  -- what has been assigned so far stays in front of the members to come
  suffices hgen : ∀ front : List (String × Json N), Sorted (front ++ ms) →
      ms.foldl (fun m kv => setMember kv.1 kv.2 m) front = front ++ ms from
    hgen [] h
  clear h
  induction ms with
  | nil => simp
  | cons kv ms ih =>
      intro front hfront
      have hlast : ∀ m ∈ front, m.1 < kv.1 := fun m hm =>
        (List.pairwise_append.1 hfront).2.2 m hm kv List.mem_cons_self
      rw [List.foldl_cons, setMember_last hlast, ih _ (by simpa using hfront)]
      simp

/-! What is found in a map that was put together. -/

theorem lookup_cons_eq_ite (k l : String) (v : Json N) (ms : List (String × Json N)) :
    ((l, v) :: ms).lookup k = if k = l then some v else ms.lookup k := by
  rw [List.lookup_cons]
  by_cases h : k = l
  · simp [h]
  · rw [if_neg h, beq_eq_false_iff_ne.2 h]

theorem lookup_setMember (k k' : String) (v : Json N) (ms : List (String × Json N)) :
    (setMember k v ms).lookup k' = if k' = k then some v else ms.lookup k' := by
  induction ms with
  | nil => exact lookup_cons_eq_ite k' k v []
  | cons m ms ih =>
      obtain ⟨l, w⟩ := m
      unfold setMember
      split
      next => exact lookup_cons_eq_ite k' k v _
      next =>
        split
        next hkl =>
          subst hkl
          by_cases h : k' = k <;> simp only [lookup_cons_eq_ite, h, if_true, if_false]
        next hne =>
          rw [lookup_cons_eq_ite, lookup_cons_eq_ite, ih]
          by_cases h : k' = k
          · subst h
            simp only [hne, if_true, if_false]
          · simp only [h, if_false]

theorem index_setMember (k k' : String) (v : Json N) (ms : List (String × Json N)) :
    index (setMember k v ms) k' = if k' = k then v else index ms k' := by
  rw [index, lookup_setMember]
  by_cases h : k' = k
  · rw [if_pos h, if_pos h]
    rfl
  · rw [if_neg h, if_neg h]
    rfl

theorem mem_keys_setMember (k k' : String) (v : Json N) (ms : List (String × Json N)) :
    k' ∈ (setMember k v ms).map Prod.fst ↔ k' = k ∨ k' ∈ ms.map Prod.fst := by
  induction ms with
  | nil => simp [setMember]
  | cons m ms ih =>
      obtain ⟨l, w⟩ := m
      unfold setMember
      split
      next => simp
      next =>
        split
        next hkl => simp [hkl]
        next =>
          rw [List.map_cons, List.mem_cons, ih, List.map_cons, List.mem_cons]
          exact or_left_comm

/-- In a map a member is found under its name. -/
theorem index_of_mem {ms : List (String × Json N)} (h : Sorted ms) {m : String × Json N}
    (hm : m ∈ ms) : index ms m.1 = m.2 := by
  induction ms with
  | nil => cases hm
  | cons m' ms ih =>
      obtain ⟨hhead, htail⟩ := List.pairwise_cons.1 h
      rw [index, lookup_cons_eq_ite]
      cases hm with
      | head => simp
      | tail _ hm =>
          have hne : m.1 ≠ m'.1 := fun heq => String.lt_irrefl _ (heq ▸ hhead m hm)
          rw [if_neg hne]
          exact ih htail hm

theorem lookup_eq_none_of_notMem {k : String} {ms : List (String × Json N)}
    (h : k ∉ ms.map Prod.fst) : ms.lookup k = none := by
  rw [List.lookup_eq_none_iff]
  intro m hm
  have hne : k ≠ m.1 := fun heq => h (heq ▸ List.mem_map_of_mem hm)
  simpa using hne

theorem lookup_ofMembers {ms : List (String × Json N)} (h : (ms.map Prod.fst).Nodup)
    (k : String) : (ofMembers ms).lookup k = ms.lookup k := by
  -- what was assigned before is found where the members to come do not have the key
  suffices hgen : ∀ m : List (String × Json N),
      (ms.foldl (fun m kv => setMember kv.1 kv.2 m) m).lookup k =
        (ms.lookup k).or (m.lookup k) by
    simpa [ofMembers] using hgen []
  induction ms with
  | nil => simp
  | cons kv ms ih =>
      intro m
      obtain ⟨hnew, hrest⟩ := List.nodup_cons.1 h
      rw [List.foldl_cons, ih hrest, lookup_setMember, lookup_cons_eq_ite]
      by_cases hk : k = kv.1
      · subst hk
        simp [lookup_eq_none_of_notMem hnew]
      · simp [hk]

theorem index_ofMembers {ms : List (String × Json N)} (h : (ms.map Prod.fst).Nodup)
    (k : String) : index (ofMembers ms) k = index ms k := by
  rw [index, lookup_ofMembers h, index]

theorem key_mem_ofMembers {ms : List (String × Json N)} {m : String × Json N}
    (h : m ∈ ofMembers ms) : m.1 ∈ ms.map Prod.fst := by
  suffices hgen : ∀ front : List (String × Json N),
      m ∈ ms.foldl (fun m kv => setMember kv.1 kv.2 m) front →
        m ∈ front ∨ m.1 ∈ ms.map Prod.fst by
    simpa using hgen [] h
  clear h
  induction ms with
  | nil => exact fun front h => .inl h
  | cons kv ms ih =>
      intro front h
      cases ih _ h with
      | inl h =>
          cases mem_setMember h with
          | inl h => exact .inr (by simp [h])
          | inr h => exact .inl h
      | inr h => exact .inr (List.mem_cons_of_mem _ h)

end I40Aas.Lib.Json
