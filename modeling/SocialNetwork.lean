import SocialNetwork.Lib.Runs
import SocialNetwork.Lib.Prog
import SocialNetwork.Lib.Pool
import SocialNetwork.Lib.Lists
import SocialNetwork.Lib.Topic
import SocialNetwork.Lib.Table
import SocialNetwork.Lib.Document
import SocialNetwork.Lib.Collection
import SocialNetwork.EventService.Consumer
import SocialNetwork.EventService.Events
import SocialNetwork.EventService.Producer
import SocialNetwork.EventService.ReadModel
import SocialNetwork.EventService.Consumers
import SocialNetwork.EventService.ConsumersTheorems
import SocialNetwork.EventService.DeduplicationTheorems
import SocialNetwork.EventService.ProjectionTheorems
import SocialNetwork.EventService.OrderTheorems
import SocialNetwork.EventService.Broker
import SocialNetwork.EventService.BrokerTheorems
import SocialNetwork.ChatService.Database
import SocialNetwork.ChatService.Messages
import SocialNetwork.ChatService.Service
import SocialNetwork.ChatService.DeliveryTheorems
import SocialNetwork.ChatService.ConfidentialityTheorems
import SocialNetwork.ChatService.PrivateChatTheorems
import SocialNetwork.Lib.Schema
import SocialNetwork.Lib.KeyValue
import SocialNetwork.Lib.Pipeline
import SocialNetwork.MongoApi.Database
import SocialNetwork.MongoApi.Api
import SocialNetwork.MongoApi.Service
import SocialNetwork.MongoApi.Protocol
import SocialNetwork.EventService.Rejection
import SocialNetwork.EventService.RejectionTheorems
import SocialNetwork.EventService.LikesTheorems
import SocialNetwork.ChatService.AtomicityTheorems
import SocialNetwork.UserService.Database
import SocialNetwork.UserService.Users
import SocialNetwork.UserService.RegistrationTheorems
import SocialNetwork.UserService.ListingTheorems
import SocialNetwork.Lib.Text
import SocialNetwork.MongoApi.AnswerTheorems
import SocialNetwork.MongoApi.CacheKeyTheorems
import SocialNetwork.MongoApi.ServiceTheorems
import SocialNetwork.MongoApi.RateLimit
import SocialNetwork.MongoApi.RateLimitTheorems
import SocialNetwork.MongoApi.RateLimitRuns
import SocialNetwork.MongoApi.AdmissionTheorems
import SocialNetwork.MongoApi.ReferenceTheorems
import SocialNetwork.MongoApi.Masking
import SocialNetwork.MongoApi.Blindness
import SocialNetwork.MongoApi.PasswordTheorems
import SocialNetwork.MongoApi.Coherence
import SocialNetwork.MongoApi.CoherenceTheorems
import SocialNetwork.WallService.Database
import SocialNetwork.WallService.Posts
import SocialNetwork.Userver.ArgumentTheorems
import SocialNetwork.Userver.BodyTheorems
import SocialNetwork.Userver.IdentifierTheorems
import SocialNetwork.Lib.Like
import SocialNetwork.UserService.SearchTheorems
import SocialNetwork.MongoApi.StatisticsTheorems
import SocialNetwork.MongoApi.HitTheorems
import SocialNetwork.MongoApi.PayloadTheorems
import SocialNetwork.MongoApi.Conversion
import SocialNetwork.MongoApi.InitialData
import SocialNetwork.MongoApi.ConversionTheorems
import SocialNetwork.Lib.Marks
import SocialNetwork.MongoApi.Trail
import SocialNetwork.MongoApi.PostTheorems
import SocialNetwork.MongoApi.ReadBackTheorems
import SocialNetwork.Lib.Reading
import SocialNetwork.MongoApi.Deeds
import SocialNetwork.MongoApi.RefinementTheorems
import SocialNetwork.Lib.Registers
import SocialNetwork.MongoApi.HistoryTheorems
import SocialNetwork.MongoApi.InboxTheorems
import SocialNetwork.Lib.Assertions
import SocialNetwork.Platform.CreationTheorems
import SocialNetwork.Platform.ListingTheorems
import SocialNetwork.EventService.ReplayTheorems
import SocialNetwork.Lib.Codes
import SocialNetwork.Userver.Query
import SocialNetwork.Userver.QueryTheorems
import SocialNetwork.Userver.RequestTheorems
