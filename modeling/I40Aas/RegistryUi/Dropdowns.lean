import Mathlib.Data.List.NodupEquivFin

/-!
The dropdowns for the descriptors of a new role. Before the role is added, each of the first
half of them is compared with all. Two of the second half are never compared with each other,
so that they can have the same text.
-/

namespace I40Aas.RegistryUi

/-- The text of `getSelectedItem()`, which is null without a selection. -/
abbrev Dropdown := Option String

/-- The loop over `j`. It ends without a result if nothing is returned, and what throws is
`none`. -/
def compareWithAll (di : Dropdown) : ℕ → List Dropdown → Option Bool
  | _, [] => some false
  | _, none :: _ => some true
  | count, some textj :: rest =>
      match di with
      | none => none
      | some texti =>
          if texti = textj then
            if 1 < count + 1 then some true else compareWithAll di (count + 1) rest
          else compareWithAll di count rest

/-- The loop over `i`. -/
def compareEach (dropdowns : List Dropdown) : List Dropdown → Option Bool
  | [] => some false
  | di :: rest =>
      match compareWithAll di 0 dropdowns with
      | none => none
      | some true => some true
      | some false => compareEach dropdowns rest

/-- `Math.round(n / 2)`, which rounds up. -/
def half (dropdowns : List Dropdown) : ℕ := (dropdowns.length + 1) / 2

def aasDescriptorDuplicateOrEmpty (dropdowns : List Dropdown) : Option Bool :=
  if 0 < dropdowns.length then compareEach dropdowns (dropdowns.take (half dropdowns))
  else some false

structure Role where
  name : String
  aasDescriptorIds : List String
  deriving DecidableEq, Repr

inductive RoleResult
  | cantBeEmpty
  | descriptorDuplicateOrEmpty
  | roleCreated (roles : List Role)
  deriving DecidableEq, Repr

/-- Adding a role to those of the model. Reading the text of a null selection throws. -/
def onAddRole (inputRoleName : String) (dropdowns : List Dropdown) (roles : List Role) :
    Option RoleResult :=
  if inputRoleName = "" then some .cantBeEmpty
  else
    match aasDescriptorDuplicateOrEmpty dropdowns with
    | none => none
    | some true => some .descriptorDuplicateOrEmpty
    | some false =>
        (dropdowns.mapM id).map fun ids => .roleCreated (roles ++ [⟨inputRoleName, ids⟩])

def SameText (dropdowns : List Dropdown) (i j : ℕ) : Prop :=
  ∃ text, dropdowns[i]? = some (some text) ∧ dropdowns[j]? = some (some text)

/-- What the check is for. -/
def DuplicateOrEmpty (dropdowns : List Dropdown) : Prop :=
  none ∈ dropdowns ∨ ∃ i j, i ≠ j ∧ SameText dropdowns i j

/-- The check ends, and finds exactly what it is for. -/
def Checked (dropdowns : List Dropdown) : Prop :=
  ∃ found, aasDescriptorDuplicateOrEmpty dropdowns = some found ∧
    (found = true ↔ DuplicateOrEmpty dropdowns)

/-- A selection is compared with all of them until an empty one or a second one is found. -/
theorem compareWithAll_some (text : String) {count : ℕ} (hcount : count ≤ 1)
    (dropdowns : List Dropdown) : compareWithAll (some text) count dropdowns =
      some (decide (none ∈ dropdowns ∨ 1 < count + dropdowns.count (some text))) := by
  induction dropdowns generalizing count with
  | nil => simp [compareWithAll, hcount]
  | cons dj rest ih =>
      cases dj with
      | none => simp [compareWithAll]
      | some textj =>
          by_cases htext : text = textj
          · subst htext
            obtain rfl | rfl : count = 0 ∨ count = 1 := by omega
            · simp [compareWithAll, ih, Nat.add_comm]
            · simp [compareWithAll]
          · have hne : some textj ≠ some text := fun h => htext (Option.some.inj h).symm
            simp [compareWithAll, htext, ih hcount, List.count_cons_of_ne hne]

/-- With an empty one among all, the first comparison already returns. -/
theorem compareEach_of_mem {d : Dropdown} {ds : List Dropdown} (hempty : none ∈ d :: ds)
    (rest : List Dropdown) : compareEach (d :: ds) (d :: rest) = some true := by
  cases d with
  | none => simp [compareEach, compareWithAll]
  | some text =>
      rw [compareEach, compareWithAll_some text (Nat.zero_le 1)]
      simp [hempty]

/-- Without an empty one, the comparisons find what there is twice. -/
theorem compareEach_of_not_mem {dropdowns : List Dropdown} (hempty : none ∉ dropdowns)
    {compared : List Dropdown} (hsub : compared ⊆ dropdowns) :
    compareEach dropdowns compared = some (decide (∃ d ∈ compared, 1 < dropdowns.count d)) := by
  induction compared with
  | nil => simp [compareEach]
  | cons d rest ih =>
      obtain ⟨hd, hrest⟩ := List.cons_subset.mp hsub
      cases d with
      | none => exact absurd hd hempty
      | some text =>
          rw [compareEach, compareWithAll_some text (Nat.zero_le 1), ih hrest]
          by_cases htwice : 1 < dropdowns.count (some text)
          · simp [htwice]
          · simp [htwice, hempty]

/-- The check never reads the text of an empty selection: it returns at the first one. -/
theorem aasDescriptorDuplicateOrEmpty_eq (dropdowns : List Dropdown) :
    aasDescriptorDuplicateOrEmpty dropdowns = some (decide (none ∈ dropdowns ∨
      ∃ d ∈ dropdowns.take (half dropdowns), 1 < dropdowns.count d)) := by
  unfold aasDescriptorDuplicateOrEmpty
  by_cases hempty : none ∈ dropdowns
  · rw [if_pos (List.length_pos_of_mem hempty), decide_eq_true (.inl hempty)]
    cases dropdowns with
    | nil => cases hempty
    | cons d ds =>
        have hhalf : half (d :: ds) = ds.length / 2 + 1 := Nat.add_div_right _ Nat.two_pos
        rw [hhalf, List.take_succ_cons]
        exact compareEach_of_mem hempty _
  · rw [compareEach_of_not_mem hempty (List.take_subset _ _)]
    cases dropdowns with
    | nil => rfl
    | cons d ds =>
        rw [if_pos (show 0 < (d :: ds).length from Nat.succ_pos _)]
        simp only [hempty, false_or]

section

variable {dropdowns : List Dropdown} {i j : ℕ}

theorem mapM_id_of_not_mem (hempty : none ∉ dropdowns) :
    ∃ ids, dropdowns.mapM id = some ids ∧ ids.map some = dropdowns := by
  induction dropdowns with
  | nil => exact ⟨[], rfl, rfl⟩
  | cons d ds ih =>
      obtain ⟨ids, hids, hmap⟩ := ih fun hmem => hempty (.tail d hmem)
      cases d with
      | none => exact absurd (.head ds) hempty
      | some text =>
          refine ⟨text :: ids, ?_, by rw [List.map_cons, hmap]⟩
          rw [List.mapM_cons, hids]
          rfl

/-- Adding a role does not throw, and a role that is added has all the selections. -/
theorem onAddRole_spec (inputRoleName : String) (dropdowns : List Dropdown) (roles : List Role) :
    ∃ result, onAddRole inputRoleName dropdowns roles = some result ∧
      ∀ roles', result = .roleCreated roles' →
        ∃ ids, ids.map some = dropdowns ∧ roles' = roles ++ [⟨inputRoleName, ids⟩] := by
  unfold onAddRole
  split
  · exact ⟨.cantBeEmpty, rfl, fun _ h => by cases h⟩
  · rw [aasDescriptorDuplicateOrEmpty_eq]
    split
    · rename_i hnone
      cases hnone
    · exact ⟨.descriptorDuplicateOrEmpty, rfl, fun _ h => by cases h⟩
    · rename_i hfalse
      have hempty : none ∉ dropdowns := fun hmem =>
        of_decide_eq_false (Option.some.inj hfalse) (.inl hmem)
      obtain ⟨ids, hids, hmap⟩ := mapM_id_of_not_mem hempty
      refine ⟨.roleCreated (roles ++ [⟨inputRoleName, ids⟩]), by rw [hids]; rfl, ?_⟩
      intro roles' heq
      obtain rfl := RoleResult.roleCreated.inj heq
      exact ⟨ids, hmap, rfl⟩

theorem SameText.symm (h : SameText dropdowns i j) : SameText dropdowns j i := by
  obtain ⟨text, hi, hj⟩ := h
  exact ⟨text, hj, hi⟩

/-- What is selected twice has another index, too. -/
theorem one_lt_count_iff {text : String} (hi : dropdowns[i]? = some (some text)) :
    1 < dropdowns.count (some text) ↔ ∃ j, i ≠ j ∧ SameText dropdowns i j := by
  have htwice : 1 < dropdowns.count (some text) ↔ dropdowns.Duplicate (some text) :=
    List.replicate_sublist_iff.symm.trans List.duplicate_iff_sublist.symm
  rw [htwice, List.duplicate_iff_exists_distinct_get]
  constructor
  · rintro ⟨n, m, hlt, hn, hm⟩
    have hn' : dropdowns[n.1]? = some (some text) := by
      rw [List.getElem?_eq_getElem n.2]
      exact congrArg some hn.symm
    have hm' : dropdowns[m.1]? = some (some text) := by
      rw [List.getElem?_eq_getElem m.2]
      exact congrArg some hm.symm
    by_cases hin : i = n.1
    · exact ⟨m.1, fun him => absurd hlt (by omega), text, hi, hm'⟩
    · exact ⟨n.1, hin, text, hi, hn'⟩
  · rintro ⟨j, hne, text', hi', hj⟩
    obtain rfl : text = text' := Option.some.inj (Option.some.inj (hi.symm.trans hi'))
    obtain ⟨hilt, hi⟩ := List.getElem?_eq_some_iff.mp hi
    obtain ⟨hjlt, hj⟩ := List.getElem?_eq_some_iff.mp hj
    rcases Nat.lt_or_gt_of_ne hne with hlt | hlt
    · exact ⟨⟨i, hilt⟩, ⟨j, hjlt⟩, hlt, hi.symm, hj.symm⟩
    · exact ⟨⟨j, hjlt⟩, ⟨i, hilt⟩, hlt, hj.symm, hi.symm⟩

/-- The comparisons find a text exactly if the first half has it and another dropdown. -/
theorem exists_count_iff (hempty : none ∉ dropdowns) :
    (∃ d ∈ dropdowns.take (half dropdowns), 1 < dropdowns.count d) ↔
      ∃ i j, i ≠ j ∧ i < half dropdowns ∧ SameText dropdowns i j := by
  constructor
  · rintro ⟨d, hd, htwice⟩
    obtain ⟨i, hi⟩ := List.getElem?_of_mem hd
    rw [List.getElem?_take] at hi
    split at hi
    · rename_i hlt
      cases d with
      | none => exact absurd (List.mem_of_getElem? hi) hempty
      | some text =>
          obtain ⟨j, hne, hsame⟩ := (one_lt_count_iff hi).mp htwice
          exact ⟨i, j, hne, hlt, hsame⟩
    · cases hi
  · rintro ⟨i, j, hne, hlt, text, hi, hj⟩
    have htake : (dropdowns.take (half dropdowns))[i]? = some (some text) := by
      rw [List.getElem?_take, if_pos hlt, hi]
    exact ⟨some text, List.mem_of_getElem? htake,
      (one_lt_count_iff hi).mpr ⟨j, hne, text, hi, hj⟩⟩

end

/-- The check is right if one of the dropdowns is empty, if one of the first half has the
text of another one, and if those of the second half differ. -/
theorem checked_iff (dropdowns : List Dropdown) : Checked dropdowns ↔ none ∈ dropdowns ∨
    (∃ i j, i ≠ j ∧ i < half dropdowns ∧ SameText dropdowns i j) ∨
    ∀ i j, half dropdowns ≤ i → half dropdowns ≤ j → SameText dropdowns i j → i = j := by
  unfold Checked DuplicateOrEmpty
  simp only [aasDescriptorDuplicateOrEmpty_eq, Option.some.injEq, exists_eq_left',
    decide_eq_true_eq]
  by_cases hempty : none ∈ dropdowns
  · simp only [hempty, true_or]
  simp only [hempty, false_or]
  rw [exists_count_iff hempty]
  by_cases hfirst : ∃ i j, i ≠ j ∧ i < half dropdowns ∧ SameText dropdowns i j
  · -- What the first half has is in the whole list, too.
    obtain ⟨i, j, hne, hlt, hsame⟩ := hfirst
    exact iff_of_true (iff_of_true ⟨i, j, hne, hlt, hsame⟩ ⟨i, j, hne, hsame⟩)
      (.inl ⟨i, j, hne, hlt, hsame⟩)
  · have hsecond : ∀ i j, i ≠ j → SameText dropdowns i j → half dropdowns ≤ i :=
      fun i j hne hsame => Nat.le_of_not_lt fun hlt => hfirst ⟨i, j, hne, hlt, hsame⟩
    simp only [hfirst, false_iff, false_or, not_exists, not_and]
    constructor
    · intro hnone i j _ _ hsame
      by_contra hne
      exact hnone i j hne hsame
    · intro heq i j hne hsame
      exact hne (heq i j (hsecond i j hne hsame) (hsecond j i hne.symm hsame.symm) hsame)

/-- The last two of four dropdowns are not compared. -/
theorem not_checked : ¬ ∀ dropdowns, Checked dropdowns := by
  intro h
  obtain ⟨found, hfound, hiff⟩ := h [some "a", some "b", some "c", some "c"]
  have hfalse : some false = some found := hfound
  obtain rfl := Option.some.inj hfalse
  exact absurd (hiff.mpr (.inr ⟨2, 3, by decide, "c", rfl, rfl⟩)) (by decide)

end I40Aas.RegistryUi
