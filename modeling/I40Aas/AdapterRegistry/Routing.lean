import I40Aas.AdapterRegistry.Registry

/-!
Where a submodel goes: the answer of `GET /adapters`, and `routeSubmodel` of the
data manager, which asks for the adapter of a submodel by its id and its semantic
id and posts it there. The lookups compare with `===`, so a key that a query
leaves out fits every adapter that leaves it out as well; `Clear` is the exact
condition under which no such adapter is returned.
-/

namespace I40Aas.AdapterRegistry

open I40Aas.Lib

/-- The adapter has one of the keys a query gives. -/
def Adapter.IsFor (a : Adapter) (submodelid submodelsemanticid : Option String) : Prop :=
  given submodelid = true ∧ a.submodelid.equals submodelid = true ∨
    given submodelsemanticid = true ∧ a.submodelsemanticid.equals submodelsemanticid = true

/-- Of the adapters that count, none can be returned for a key that the query does
not give: where it gives a semantic id only, the last adapter whose submodel id
equals the missing one has that semantic id; where it gives a submodel id only,
there is an adapter with it, or the last one whose semantic id equals the missing
one does not count. -/
structure Clear (counts : Adapter → Prop) (storage : Storage)
    (submodelid submodelsemanticid : Option String) : Prop where
  semanticId : given submodelid = false → given submodelsemanticid = true →
    ∀ a, IsLast (·.submodelid.equals submodelid) storage.values a → counts a →
      a.submodelsemanticid.equals submodelsemanticid = true
  submodelId : given submodelid = true → given submodelsemanticid = false →
    (∀ a ∈ storage.values, a.submodelid.equals submodelid = false) →
      ∀ a, IsLast (·.submodelsemanticid.equals submodelsemanticid) storage.values a → ¬ counts a

section Lookup

variable {counts : Adapter → Prop} {storage : Storage}
  {submodelid submodelsemanticid : Option String}

theorem IsLast.mem {fits : Adapter → Bool} {values : List Adapter} {a : Adapter}
    (h : IsLast fits values a) : a ∈ values ∧ fits a = true := by
  obtain ⟨before, after, rfl, ha, -⟩ := h
  exact ⟨by simp, ha⟩

/-- The adapter of a response, in terms of the stored values. -/
theorem getAdapters_eq_adapter_iff {a : Adapter} :
    getAdapters storage submodelid submodelsemanticid = .adapter a ↔
      (given submodelid = true ∨ given submodelsemanticid = true) ∧
        (IsLast (·.submodelid.equals submodelid) storage.values a ∨
          (∀ b ∈ storage.values, b.submodelid.equals submodelid = false) ∧
            IsLast (·.submodelsemanticid.equals submodelsemanticid) storage.values a) := by
  have hgiven : (!given submodelid && !given submodelsemanticid) = true ↔
      ¬ (given submodelid = true ∨ given submodelsemanticid = true) := by simp
  unfold getAdapters
  by_cases h : given submodelid = true ∨ given submodelsemanticid = true
  · rw [if_neg (by rw [hgiven]; exact not_not.mpr h)]
    unfold getAdapterBySubmodelId getAdapterBySubmodelSemanticId
    cases hfirst : lastMatch (·.submodelid.equals submodelid) storage.values with
    | some b =>
        have hb := lastMatch_eq_some_iff.mp hfirst
        constructor
        · intro heq
          cases heq
          exact ⟨h, .inl hb⟩
        · rintro ⟨-, ha | ⟨hnone, -⟩⟩
          · have := hfirst.symm.trans (lastMatch_eq_some_iff.mpr ha)
            rw [Option.some.inj this]
          · obtain ⟨hmem, hfits⟩ := hb.mem
            rw [hnone b hmem] at hfits
            cases hfits
    | none =>
        have hnone := lastMatch_eq_none_iff.mp hfirst
        cases hsecond : lastMatch (·.submodelsemanticid.equals submodelsemanticid)
          storage.values with
        | some b =>
            have hb := lastMatch_eq_some_iff.mp hsecond
            constructor
            · intro heq
              cases heq
              exact ⟨h, .inr ⟨hnone, hb⟩⟩
            · rintro ⟨-, ha | ⟨-, ha⟩⟩
              · obtain ⟨hmem, hfits⟩ := ha.mem
                rw [hnone a hmem] at hfits
                cases hfits
              · have := hsecond.symm.trans (lastMatch_eq_some_iff.mpr ha)
                rw [Option.some.inj this]
        | none =>
            have hnone' := lastMatch_eq_none_iff.mp hsecond
            constructor
            · intro heq
              cases heq
            · rintro ⟨-, ha | ⟨-, ha⟩⟩
              · obtain ⟨hmem, hfits⟩ := ha.mem
                rw [hnone a hmem] at hfits
                cases hfits
              · obtain ⟨hmem, hfits⟩ := ha.mem
                rw [hnone' a hmem] at hfits
                cases hfits
  · rw [if_pos (hgiven.mpr h)]
    constructor
    · intro heq
      cases heq
    · intro ha
      exact absurd ha.1 h

/-- Every counting adapter that is returned has a key of the query exactly if the
store is clear for the query. -/
theorem isFor_iff_clear :
    (∀ a, getAdapters storage submodelid submodelsemanticid = .adapter a → counts a →
        a.IsFor submodelid submodelsemanticid) ↔
      Clear counts storage submodelid submodelsemanticid := by
  simp only [getAdapters_eq_adapter_iff]
  constructor
  · intro h
    refine ⟨fun hid hsemantic a ha hcounts => ?_, fun hid hsemantic hnone a ha hcounts => ?_⟩
    · -- the lookup by the missing id comes first
      rcases h a ⟨.inr hsemantic, .inl ha⟩ hcounts with ⟨hid', -⟩ | ⟨-, heq⟩
      · rw [hid] at hid'
        cases hid'
      · exact heq
    · -- the lookup by the given id has failed, the one by the missing semantic id has not
      rcases h a ⟨.inl hid, .inr ⟨hnone, ha⟩⟩ hcounts with ⟨-, heq⟩ | ⟨hsemantic', -⟩
      · rw [hnone a ha.mem.1] at heq
        cases heq
      · rw [hsemantic] at hsemantic'
        cases hsemantic'
  · rintro hclear a ⟨hgiven, ha | ⟨hnone, ha⟩⟩ hcounts
    · cases hid : given submodelid with
      | true => exact .inl ⟨hid, ha.mem.2⟩
      | false =>
          have hsemantic : given submodelsemanticid = true := by simpa [hid] using hgiven
          exact .inr ⟨hsemantic, hclear.semanticId hid hsemantic a ha hcounts⟩
    · cases hsemantic : given submodelsemanticid with
      | true => exact .inr ⟨hsemantic, ha.mem.2⟩
      | false =>
          have hid : given submodelid = true := by simpa [hsemantic] using hgiven
          exact absurd hcounts (hclear.submodelId hid hsemantic hnone a ha)

end Lookup

/-! ### The data manager -/

/-- What `routeSubmodel` reads of a submodel; `semanticId` holds the values of the
keys, if there is a semantic id. -/
structure Submodel where
  id : String
  semanticId : Option (List (Option String))

/-- `submodel.semanticId ? submodel.semanticId.keys[0].value : undefined`; the outer
`none` stands for the error when there is no first key. -/
def Submodel.semanticIdValue (submodel : Submodel) : Option (Option String) :=
  match submodel.semanticId with
  | none => some none
  | some [] => none
  | some (value :: _) => some value

/-- The adapter a submodel is posted to, if no error comes first; a response
without a `url` is one. -/
def postedTo (storage : Storage) (submodel : Submodel) : Option Adapter :=
  match submodel.semanticIdValue with
  | none => none
  | some semanticIdValue =>
      match getAdapters storage (some submodel.id) semanticIdValue with
      | .adapter adapter => if adapter.url.truthy then some adapter else none
      | _ => none

/-- The posts of `routeSubmodel`; the submodels are handled independently. -/
def routeSubmodel (storage : Storage) (submodels : List Submodel) : List (Submodel × Adapter) :=
  submodels.filterMap fun submodel => (postedTo storage submodel).map (submodel, ·)

theorem postedTo_eq_some_iff {storage : Storage} {submodel : Submodel} {a : Adapter} :
    postedTo storage submodel = some a ↔ ∃ value, submodel.semanticIdValue = some value ∧
      getAdapters storage (some submodel.id) value = .adapter a ∧ a.url.truthy = true := by
  unfold postedTo
  cases submodel.semanticIdValue with
  | none => simp
  | some value =>
      cases hresponse : getAdapters storage (some submodel.id) value with
      | adapters adapters => simp [hresponse]
      | error message => simp [hresponse]
      | adapter adapter =>
          simp only [Option.ite_none_right_eq_some, Option.some.injEq, exists_eq_left',
            hresponse, Response.adapter.injEq]
          constructor
          · rintro ⟨hurl, rfl⟩
            exact ⟨rfl, hurl⟩
          · rintro ⟨rfl, hurl⟩
            exact ⟨hurl, rfl⟩

theorem mem_routeSubmodel {storage : Storage} {submodels : List Submodel}
    {p : Submodel × Adapter} :
    p ∈ routeSubmodel storage submodels ↔ p.1 ∈ submodels ∧ postedTo storage p.1 = some p.2 := by
  obtain ⟨submodel, a⟩ := p
  simp only [routeSubmodel, List.mem_filterMap, Option.map_eq_some_iff, Prod.mk.injEq]
  constructor
  · rintro ⟨submodel', hmem, a', ha', rfl, rfl⟩
    exact ⟨hmem, ha'⟩
  · rintro ⟨hmem, ha⟩
    exact ⟨submodel, hmem, a, ha, rfl, rfl⟩

/-- `GET /adapters` returns for a query only adapters with a key of the query, and
`routeSubmodel` posts submodels only to adapters registered for them, exactly if
the store is clear: for the query, and for every submodel with respect to the
adapters that have a `url`. -/
theorem adapters_isFor_iff_clear (storage : Storage) (submodelid submodelsemanticid : Option String)
    (submodels : List Submodel) :
    ((∀ a, getAdapters storage submodelid submodelsemanticid = .adapter a →
        a.IsFor submodelid submodelsemanticid) ↔
      Clear (fun _ => True) storage submodelid submodelsemanticid) ∧
    ((∀ p ∈ routeSubmodel storage submodels, ∃ value, p.1.semanticIdValue = some value ∧
        p.2.IsFor (some p.1.id) value) ↔
      ∀ submodel ∈ submodels, ∀ value, submodel.semanticIdValue = some value →
        Clear (fun a => a.url.truthy = true) storage (some submodel.id) value) := by
  constructor
  · rw [← isFor_iff_clear]
    simp
  · simp only [← isFor_iff_clear]
    constructor
    · intro h submodel hmem value hvalue a ha hurl
      obtain ⟨value', hvalue', hfor⟩ := h (submodel, a)
        (mem_routeSubmodel.mpr ⟨hmem, postedTo_eq_some_iff.mpr ⟨value, hvalue, ha, hurl⟩⟩)
      obtain rfl := Option.some.inj (hvalue.symm.trans hvalue')
      exact hfor
    · intro h p hp
      obtain ⟨hmem, hposted⟩ := mem_routeSubmodel.mp hp
      obtain ⟨value, hvalue, ha, hurl⟩ := postedTo_eq_some_iff.mp hposted
      exact ⟨value, hvalue, h p.1 hmem value hvalue p.2 ha hurl⟩

/-- An adapter registered by its submodel id alone. -/
def submodelAdapter : Adapter where
  adapterid := "adapter"
  name := .undefined
  url := .string "http://adapter.example"
  submodelid := .string "submodel"
  submodelsemanticid := .undefined

def submodelStorage : Storage := Storage.empty.setItem submodelAdapter (by decide)

/-- A submodel with another id and without a semantic id is posted to it. -/
theorem not_adapters_isFor_submodelStorage :
    ¬ ∀ (storage : Storage) (submodelid submodelsemanticid : Option String)
      (submodels : List Submodel),
      (given submodelid = true ∨ given submodelsemanticid = true →
        ∀ a, getAdapters storage submodelid submodelsemanticid = .adapter a →
          a.IsFor submodelid submodelsemanticid) ∧
      ∀ p ∈ routeSubmodel storage submodels, ∃ value, p.1.semanticIdValue = some value ∧
        p.2.IsFor (some p.1.id) value := by
  intro h
  have hposted : (⟨"other", none⟩, submodelAdapter) ∈ routeSubmodel submodelStorage
      [⟨"other", none⟩] := mem_routeSubmodel.mpr ⟨by simp, by decide⟩
  obtain ⟨value, hvalue, hfor⟩ :=
    (h submodelStorage none none [⟨"other", none⟩]).2 _ hposted
  obtain rfl : none = value := Option.some.inj hvalue
  rcases hfor with ⟨-, heq⟩ | ⟨hgiven, -⟩
  · exact absurd heq (by decide)
  · cases hgiven

end I40Aas.AdapterRegistry
