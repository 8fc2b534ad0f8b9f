import I40Aas.Lib.Execution
import I40Aas.Lib.OptimisticLock
import I40Aas.Lib.CheckThenSave
import I40Aas.OnboardingSkill.StateMachine
import I40Aas.OnboardingSkill.DeferredWrapper
import I40Aas.OnboardingSkill.Skill
import I40Aas.OnboardingSkill.Runs
import I40Aas.OnboardingSkill.VersionRace
import I40Aas.OnboardingSkill.DeferredCalls
import I40Aas.OnboardingSkill.DeferredMessages
import I40Aas.OnboardingSkill.Approval
import I40Aas.EndpointRegistry.Entities
import I40Aas.EndpointRegistry.Calls
import I40Aas.EndpointRegistry.Credentials
import I40Aas.EndpointRegistry.Isolation
import I40Aas.EndpointRegistry.Effects
import I40Aas.EndpointRegistry.SemanticProtocols
import I40Aas.AdapterRegistry.Registry
import I40Aas.AdapterRegistry.Routing
import I40Aas.Lib.Json.Scanner
import I40Aas.Lib.Utf8
import I40Aas.Lib.Json.Printer
import I40Aas.Lib.Json.Value
import I40Aas.Interaction.Conversion
import I40Aas.EndpointResolver.Resolver
import I40Aas.EndpointResolver.ReceiverRewriting
import I40Aas.HttpsEgress.Credentials
import I40Aas.OnboardingSkill.Answers
import I40Aas.OnboardingSkill.Rejection
import I40Aas.OnboardingSkill.Sequence
import I40Aas.OnboardingSkill.ApprovedContent
import I40Aas.HttpsIngress.Topic
import I40Aas.EndpointRegistry.Roles
import I40Aas.EndpointRegistry.Leftovers
import I40Aas.EndpointRegistry.Reachable
import I40Aas.EndpointRegistry.RoleUpdate
import I40Aas.EndpointRegistry.RoundTrip
import I40Aas.EndpointRegistry.Deletion
import I40Aas.EndpointRegistry.Readings
import I40Aas.EndpointRegistry.Requests
import I40Aas.EndpointRegistry.Creation
import I40Aas.Lib.Json.Decimal
import I40Aas.Interaction.Jsonpb
import I40Aas.EndpointResolver.Places
import I40Aas.EndpointResolver.Delivery
import I40Aas.GrpcEgress.Egress
import I40Aas.Lib.Json.Stringify
import I40Aas.OnboardingSkill.Reply
import I40Aas.Lib.JavaScript
import I40Aas.OnboardingSkill.MessageInterpreter
import I40Aas.EndpointRegistry.ConcurrentRoles
import I40Aas.StorageAdapter.Submodels
import I40Aas.StorageAdapter.VersionRestart
import I40Aas.Lib.Traversal
import I40Aas.Lib.Simulation
import I40Aas.StorageAdapter.SubmodelMap
import I40Aas.GrpcIngress.Consumer
import I40Aas.GrpcIngress.Progress
import I40Aas.HttpsIngress.Interaction
import I40Aas.EndpointRegistry.ConcurrentListing
import I40Aas.EndpointRegistry.Responses
import I40Aas.HttpsEgress.BrokerMessages
import I40Aas.Lib.PercentEncoding
import I40Aas.EndpointRegistry.Routes
import I40Aas.EndpointResolver.RegistryPaths
import I40Aas.EndpointResolver.Panics
import I40Aas.GrpcEgress.Clients
import I40Aas.GrpcEgress.Deliveries
import I40Aas.Lib.Slice
import I40Aas.GrpcEgress.ClientPool
import I40Aas.GrpcEgress.Reuse
import I40Aas.Lib.Fairness
import I40Aas.GoAmqp.Client
import I40Aas.GoAmqp.Connections
import I40Aas.GoAmqp.Steps
import I40Aas.GoAmqp.Reached
import I40Aas.GoAmqp.Calling
import I40Aas.GoAmqp.Progress
import I40Aas.GoAmqp.Stuck
import I40Aas.GoAmqp.Publishing
import I40Aas.MongoClient.Connection
import I40Aas.MongoClient.VersionedUpdate
import I40Aas.TsAmqp.Client
import I40Aas.TsAmqp.CurrentConnection
import I40Aas.TsAmqp.Cleanup
import I40Aas.Lib.Documents
import I40Aas.Lib.Retry
import I40Aas.GrpcEgress.Retries
import I40Aas.RegistryUi.Dropdowns
import I40Aas.Lib.JavaScriptArray
import I40Aas.RegistryUi.Deletion
import I40Aas.Lib.History
import I40Aas.Lib.Progress
import I40Aas.DataManager.Requests
import I40Aas.DataManager.Runs
import I40Aas.DataManager.Answers
import I40Aas.OnboardingSkill.CreateInstance
import I40Aas.Onboarding.Network
import I40Aas.Onboarding.OperatorAnswers
import I40Aas.Lib.TopicExchange
import I40Aas.Broker.Topology
import I40Aas.Broker.Reach
import I40Aas.Broker.Bus
import I40Aas.Lib.Json.Transport
import I40Aas.Routing.Answers
import I40Aas.Routing.Recipients
import I40Aas.Routing.Egress
import I40Aas.OnboardingSkill.Serializable
import I40Aas.OnboardingSkill.Completion
import I40Aas.Lib.ClientServer
import I40Aas.RegistryUi.CreateDescriptor
import I40Aas.RegistryUi.CreateSemanticProtocol
import I40Aas.DataManager.Reads
