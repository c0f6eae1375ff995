import Nalang.Matchmaking.SinglePlace
import Nalang.Matchmaking.Membership
import Nalang.Matchmaking.DropOut
import Nalang.Matchmaking.FilterErrors
import Nalang.Matchmaking.Isolation
import Nalang.Matchmaking.Registration
import Nalang.Matchmaking.Waiters
import Nalang.Matchmaking.Agreement
import Nalang.Matchmaking.AgeFilter
import Nalang.Matchmaking.Coroutines
import Nalang.Matchmaking.Uninterrupted
import Nalang.Matchmaking.Interleaving
import Nalang.Matchmaking.Cleanup
import Nalang.Matchmaking.MissedPairs
import Nalang.Matchmaking.ConnectRace
import Nalang.Matchmaking.ProposalOutcome
import Nalang.Accounts.Data
import Nalang.Accounts.Auth
import Nalang.Accounts.Requests
import Nalang.Accounts.RefreshTokens
import Nalang.Accounts.Identities
import Nalang.CallRoutes.Recordings
import Nalang.CallRoutes.Noninterference
import Nalang.CallRoutes.JoinTokens
import Nalang.Profiles.ConcurrentSaves
import Nalang.WaitingRoom.Searching
import Nalang.Matchmaking.Pairing
import Nalang.Matchmaking.Departure
import Nalang.Accounts.Lifetimes
import Nalang.WaitingRoom.CallWebSocket
import Nalang.WaitingRoom.Frames
import Nalang.WaitingRoom.Refusals
import Nalang.WaitingRoom.Leaving
import Nalang.Profiles.Localisation
import Nalang.Session.Interceptor
import Nalang.Agent.Egress
import Nalang.VoiceCall.Deadline
import Nalang.VoiceCall.CallRecord
import Nalang.Session.SignedOut
import Nalang.Matchmaking.MatchRule
import Nalang.Matchmaking.Messages
import Nalang.Matchmaking.DeadPartner
import Nalang.Accounts.SocialLogin
import Nalang.Accounts.Authentication
import Nalang.Accounts.Sessions
import Nalang.WaitingRoom.FilterTransport
import Nalang.Profiles.Undisturbed
import Nalang.Accounts.SignUps
import Nalang.VoiceCall.Simulation
import Nalang.Matchmaking.Seniority
import Nalang.Matchmaking.AgeIgnored
import Nalang.Profiles.SetupLists
import Nalang.Profiles.Seeds
import Nalang.Profiles.SetupForm
import Nalang.Session.Application
import Nalang.Session.UnknownUser
import Nalang.Accounts.Passwords
import Nalang.WaitingRoom.FilterSheet
import Nalang.Profiles.Images
import Nalang.WaitingRoom.PartnerData
import Nalang.WaitingRoom.Acceptance
import Nalang.Agent.Polling
import Nalang.CallRoutes.History
import Nalang.CallRoutes.HistoryPage
import Nalang.Library.StoreViews
import Nalang.CallRoutes.CallSocket
import Nalang.Redis.Parts
import Nalang.Redis.Backend
import Nalang.Redis.Services
import Nalang.Redis.Forgotten
