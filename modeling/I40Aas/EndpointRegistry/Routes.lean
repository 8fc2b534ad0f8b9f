import Mathlib.Data.List.Basic
import I40Aas.Lib.PercentEncoding

/-!
The routes of the endpoint registry and how its Express router finds the handler of a path.
The literals of a route are compared without case, a parameter takes one segment that is not
empty, and a slash may follow the last one.
-/

namespace I40Aas.EndpointRegistry.Router

open I40Aas.Lib

inductive Method
  | get
  | put
  | patch
  | delete
  deriving DecidableEq

/-- What a handler calls. -/
inductive Handler
  | health
  | registerOrReplaceAASDescriptor
  | register
  | readAASDescriptorByAASId
  | updateAASDescriptorByAASId
  | deleteAASDescriptorByAASId
  | getAllAASDescriptorsList
  | createOrUpdateSemanticProtocol
  | createSemanticProtocol
  | readAllSemanticProtocols
  | deleteSemanticProtocol
  | readAASBySemanticProtocolAndRole
  | updatedAASIDsToRole
  | deleteAASIdFromRole
  | readSemanticProtocolBySemanticProtocolId
  | updateSemanticProtocolById
  deriving DecidableEq

structure Route where
  path : String
  method : Method
  handler : Handler

def routes : List Route :=
  [⟨"/health", .get, .health⟩,
   ⟨"/admin/AASDescriptors", .put, .registerOrReplaceAASDescriptor⟩,
   ⟨"/AASDescriptors", .put, .register⟩,
   ⟨"/AASDescriptors/:aasId", .get, .readAASDescriptorByAASId⟩,
   ⟨"/AASDescriptors/:aasId", .patch, .updateAASDescriptorByAASId⟩,
   ⟨"/AASDescriptors/:aasId", .delete, .deleteAASDescriptorByAASId⟩,
   ⟨"/AASDescriptors", .get, .getAllAASDescriptorsList⟩,
   ⟨"/admin/semanticProtocols", .put, .createOrUpdateSemanticProtocol⟩,
   ⟨"/semanticProtocols", .put, .createSemanticProtocol⟩,
   ⟨"/semanticProtocols", .get, .readAllSemanticProtocols⟩,
   ⟨"/semanticProtocols/:sematicProtocolId", .delete, .deleteSemanticProtocol⟩,
   ⟨"/semanticProtocols/:semanticProtocolId/role/:roleName/AASDescriptors", .get,
     .readAASBySemanticProtocolAndRole⟩,
   ⟨"/semanticProtocols/:semanticProtocolId/role/:roleName/AASDescriptors", .patch,
     .updatedAASIDsToRole⟩,
   ⟨"/semanticProtocols/:semanticProtocolId/role/:roleName/AASDescriptors/:aasId", .delete,
     .deleteAASIdFromRole⟩,
   ⟨"/semanticProtocols/:semanticProtocolId", .get, .readSemanticProtocolBySemanticProtocolId⟩,
   ⟨"/semanticProtocols/:semanticProtocolId", .patch, .updateSemanticProtocolById⟩,
   ⟨"/semanticProtocols/:semanticProtocolId", .get, .readSemanticProtocolBySemanticProtocolId⟩]

/-- The parameter that a segment of a route stands for, if it is one, with its value. -/
def matchSegment (pattern segment : List Char) : Option (List (String × List Char)) :=
  match pattern with
  | ':' :: name => if segment = [] then none else some [(String.ofList name, segment)]
  | _ => if segment.map Char.toLower = pattern.map Char.toLower then some [] else none

def matchSegments : List (List Char) → List (List Char) → Option (List (String × List Char))
  | [], [] | [], [[]] => some []
  | pattern :: patterns, segment :: segments => do
      let params ← matchSegment pattern segment
      let rest ← matchSegments patterns segments
      return params ++ rest
  | _, _ => none

/-- The parameters are decoded one by one. -/
def decodeParams (params : List (String × List Char)) : Option (List (String × String)) :=
  params.mapM fun param => do
    let value ← PercentEncoding.decodeURIComponent param.2
    return (param.1, String.ofList value)

/-- The segments of the path, without a query or a fragment. -/
def segments (url : String) : List (List Char) :=
  (url.toList.takeWhile fun c => c ≠ '?' ∧ c ≠ '#').splitOn '/'

/-- The first route of the method that matches. A parameter that cannot be decoded is an error
for the routes after it, too. -/
def dispatch (method : Method) (url : String) :
    List Route → Option (Handler × List (String × String))
  | [] => none
  | route :: rest =>
      match matchSegments (segments route.path) (segments url) with
      | none => dispatch method url rest
      | some params =>
          match decodeParams params with
          | none => none
          | some params =>
              if route.method = method then some (route.handler, params)
              else dispatch method url rest

example : dispatch .get "/aasdescriptors/urn%3Aaas/" routes =
    some (.readAASDescriptorByAASId, [("aasId", "urn:aas")]) := by
  decide

end I40Aas.EndpointRegistry.Router
