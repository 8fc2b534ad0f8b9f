import I40Aas.EndpointResolver.Resolver

/-!
The two loops of the resolver as one pass. The places of an answer of the registry are the
endpoints of its descriptors in their order, and `none` wherever the type of a value is asserted
that has another one.
-/

namespace I40Aas.EndpointResolver

open I40Aas.Lib I40Aas.Lib.Json I40Aas.Interaction

variable {F : Type}

def isObject : Json F → Bool
  | .obj _ => true
  | _ => false

structure Target (F : Type) where
  aasDescriptor : List (String × Json F)
  endpoint : List (String × Json F)
  deriving DecidableEq

def Publication.target (p : Publication F) : Target F :=
  { aasDescriptor := p.aasDescriptor, endpoint := p.endpoint }

/-- The identification of the descriptor is asserted only for a message that names no id. -/
def placeOf (named : Bool) (aasDescriptor : List (String × Json F)) :
    Json F → Option (Target F)
  | .obj endpoint =>
      if named || isObject (index aasDescriptor "identification") then
        some { aasDescriptor := aasDescriptor, endpoint := endpoint }
      else none
  | _ => none

def placesOf (named : Bool) : Json F → List (Option (Target F))
  | .obj aasDescriptor =>
      match index aasDescriptor "descriptor" with
      | .null => []
      | .obj descriptor =>
          match index descriptor "endpoints" with
          | .null => []
          | .arr endpoints => endpoints.map (placeOf named aasDescriptor)
          | _ => [none]
      | _ => [none]
  | _ => [none]

def places (named : Bool) (aasDescriptors : List (Json F)) : List (Option (Target F)) :=
  aasDescriptors.flatMap (placesOf named)

variable [FloatFormat F]

def resolvePlaces (env : Env F) (msg : List UInt8) (frame : Frame) (n : ℕ) :
    List (Option (Target F)) → Outcome F
  | [] => ([], none)
  | none :: _ => ([], some .panic)
  | some t :: ps =>
      match resolveEndpoint env msg frame t.aasDescriptor t.endpoint with
      | .ok p =>
          if env.publish n p.routingKey p.resolverMsg.payload then
            let (published, failure) := resolvePlaces env msg frame (n + 1) ps
            (p :: published, failure)
          else ([], some .publish)
      | .error failure => ([], some failure)

section

variable {env : Env F} {msg : List UInt8} {frame : Frame}

theorem resolvePlaces_append (n : ℕ) (ps qs : List (Option (Target F))) :
    resolvePlaces env msg frame n (ps ++ qs) =
      match resolvePlaces env msg frame n ps with
      | (published, none) =>
          let (published', failure) := resolvePlaces env msg frame (n + published.length) qs
          (published ++ published', failure)
      | (published, some failure) => (published, some failure) := by
  induction ps generalizing n with
  | nil => simp [resolvePlaces]
  | cons place ps ih =>
      cases place with
      | none => rfl
      | some t =>
          simp only [List.cons_append, resolvePlaces]
          cases resolveEndpoint env msg frame t.aasDescriptor t.endpoint with
          | error failure => rfl
          | ok p =>
              simp only
              split
              · rw [ih (n + 1)]
                split
                · rename_i published hpublished
                  simp [hpublished, Nat.add_assoc, Nat.add_comm 1]
                · rename_i published failure hpublished
                  simp [hpublished]
              · rfl

variable (named : Bool) (h : ∀ aasDescriptor endpoint,
  (named || isObject (index aasDescriptor "identification")) = false →
    resolveEndpoint env msg frame aasDescriptor endpoint = .error .panic)

include h

theorem resolveEndpoints_eq_resolvePlaces (aasDescriptor : List (String × Json F)) (n : ℕ)
    (endpoints : List (Json F)) :
    resolveEndpoints env msg frame aasDescriptor n endpoints =
      resolvePlaces env msg frame n (endpoints.map (placeOf named aasDescriptor)) := by
  induction endpoints generalizing n with
  | nil => rfl
  | cons e endpoints ih =>
      cases e with
      | obj endpoint =>
          rw [List.map_cons, placeOf]
          split
          · cases hp : resolveEndpoint env msg frame aasDescriptor endpoint with
            | ok p => simp only [resolveEndpoints, resolvePlaces, hp, ih]
            | error failure => simp only [resolveEndpoints, resolvePlaces, hp]
          · rename_i hplace
            rw [resolveEndpoints, h _ _ (Bool.not_eq_true _ ▸ hplace)]
            rfl
      | _ => rfl

theorem resolveDescriptor_eq_resolvePlaces (n : ℕ) (d : Json F) :
    resolveDescriptor env msg frame n d =
      resolvePlaces env msg frame n (placesOf named d) := by
  cases d with
  | obj aasDescriptor =>
      simp only [resolveDescriptor, placesOf]
      cases index aasDescriptor "descriptor" with
      | obj descriptor =>
          simp only
          cases index descriptor "endpoints" with
          | arr endpoints => exact resolveEndpoints_eq_resolvePlaces named h aasDescriptor n _
          | _ => rfl
      | _ => rfl
  | _ => rfl

/-- The two loops are one pass, whatever the registry has answered. -/
theorem resolveDescriptors_eq_resolvePlaces (n : ℕ) (ds : List (Json F)) :
    resolveDescriptors env msg frame n ds =
      resolvePlaces env msg frame n (places named ds) := by
  induction ds generalizing n with
  | nil => rfl
  | cons d ds ih =>
      rw [places, List.flatMap_cons, resolvePlaces_append, resolveDescriptors,
        resolveDescriptor_eq_resolvePlaces named h]
      cases resolvePlaces env msg frame n (placesOf named d) with
      | mk published failure =>
          cases failure with
          | none => simp only [ih, places]
          | some failure => rfl

end

end I40Aas.EndpointResolver
