import AuthForge.Base.Run
import AuthForge.Base.Prog
import AuthForge.Base.Spawn
import AuthForge.Base.Dict
import AuthForge.Base.Text
import AuthForge.Base.TimedStore
import AuthForge.Base.Regex
import AuthForge.OAuth2.Dto
import AuthForge.OAuth2.Crypto
import AuthForge.OAuth2.TokenService
import AuthForge.OAuth2.Repository
import AuthForge.OAuth2.ScopeFanOut
import AuthForge.OAuth2.Trace
import AuthForge.OAuth2.Authorization
import AuthForge.Storage.Memory
import AuthForge.Storage.Postgres
import AuthForge.Storage.Redis
import AuthForge.Storage.TokenCache
import AuthForge.Identity.Password
import AuthForge.Identity.Totp
import AuthForge.Identity.Users
import AuthForge.Identity.Statements
import AuthForge.Admin.UserAdmin
import AuthForge.Account.SelfService
import AuthForge.Http.Validation
import AuthForge.Http.World
import AuthForge.Http.SessionController
import AuthForge.Http.AuthorizationEndpoint
import AuthForge.Http.MfaController
import AuthForge.Http.DeviceGrant
import AuthForge.Http.DeviceStatements
import AuthForge.Http.Server
import AuthForge.Http.Runs
import AuthForge.Http.Flow
import AuthForge.Http.Issuance
import AuthForge.Authz.ScopeRegistry
import AuthForge.Proof.CodeBinding
import AuthForge.Proof.RefreshFamily
import AuthForge.Proof.FamilyDeath
import AuthForge.Proof.RedisBinding
import AuthForge.Proof.SubjectAuthenticity
import AuthForge.Proof.MfaGate
import AuthForge.Proof.EmailGate
import AuthForge.Proof.ScopeAuthorization
import AuthForge.Proof.RedirectUris
import AuthForge.Proof.SecondFactor
import AuthForge.Proof.CodeRoundTrip
import AuthForge.Proof.ScopeGate
import AuthForge.Proof.AmrSoundness
import AuthForge.Proof.PkceGate
import AuthForge.Proof.PollingBackoff
import AuthForge.Proof.DeviceRedemption
import AuthForge.Proof.FailedLogins
import AuthForge.Proof.DisableSticky
import AuthForge.Proof.DisabledUsers
import AuthForge.Proof.LastAdmin
import AuthForge.Proof.RejectedRefresh
import AuthForge.Proof.OwnerRevocation
import AuthForge.Proof.OldPassword
import AuthForge.Proof.UsableTokens
import AuthForge.Proof.CacheDiscriminator
import AuthForge.Proof.RevokedTokens
import AuthForge.Proof.CacheTransparency
import AuthForge.Identity.SocialLinks
import AuthForge.Proof.SocialLinks
import AuthForge.Storage.Transactions
import AuthForge.Proof.TransactionMirror
import AuthForge.Account.EmailVerification
import AuthForge.Account.ActingUser
import AuthForge.Proof.VerifiedAddress
import AuthForge.Authz.ScopeCatalog
import AuthForge.Proof.AdminScopes
import AuthForge.Storage.MemoryCalls
import AuthForge.Proof.PermanentRevocation
import AuthForge.Base.Masking
import AuthForge.Storage.ClientTables
import AuthForge.Admin.ClientRegistration
import AuthForge.Http.TokenEndpoint
import AuthForge.Proof.GrantTypes
import AuthForge.Storage.Subjects
import AuthForge.Http.GitHubFlow
import AuthForge.Proof.OneSubject
import AuthForge.Identity.Resolution
import AuthForge.Proof.SubjectResolution
import AuthForge.Storage.ClientCache
import AuthForge.Proof.RotatedSecret
import AuthForge.Proof.Introspection
import AuthForge.Storage.ClientJson
import AuthForge.Storage.RedisClients
import AuthForge.Proof.ClientBackends
import AuthForge.Proof.CachedCheck
import AuthForge.Proof.RegisteredClients
import AuthForge.Proof.CodeFlowStart
import AuthForge.Identity.SocialSignUp
import AuthForge.Proof.SocialSignUp
import AuthForge.Base.History
import AuthForge.Base.Callbacks
import AuthForge.Storage.TokenPair
import AuthForge.Proof.TokenPair
import AuthForge.Proof.FailedRedemption
import AuthForge.Account.OneTimeTokens
import AuthForge.Proof.OneTimeTokens
import AuthForge.Identity.MfaService
import AuthForge.Proof.ConfirmedSecret
import AuthForge.Storage.UserReadCache
import AuthForge.Proof.InvalidatedReads
import AuthForge.Base.QueryString
import AuthForge.Proof.RedirectLocations
import AuthForge.Schema.SchemaManager
import AuthForge.Proof.MigrationAtomicity
import AuthForge.Proof.MigrationCompleteness
import AuthForge.Proof.AccountDeletion
import AuthForge.Proof.ActingUser
import AuthForge.Base.Sessions
import AuthForge.Spa.Page
import AuthForge.Spa.Admin
import AuthForge.Proof.SingleFlight
import AuthForge.Proof.SelfWaiting
import AuthForge.Spa.User
import AuthForge.Proof.FinalLogout
import AuthForge.Proof.PresentedOnce
import AuthForge.Http.Logout
import AuthForge.Proof.LogoutNotices
import AuthForge.Proof.LogoutAuthority
import AuthForge.Proof.PromptNone
import AuthForge.Base.EvictOldest
import AuthForge.Common.RateLimiter
import AuthForge.Proof.LiveBuckets
import AuthForge.Proof.BoundedBuckets
import AuthForge.Proof.RetryAfter
import AuthForge.Proof.PasswordVerifiers
import AuthForge.Proof.TotpWindow
import AuthForge.Base.Uri
import AuthForge.Proof.LoopbackRedirects
import AuthForge.Proof.StoredRedirectUris
import AuthForge.Proof.LogoutTargets
import AuthForge.Proof.SpecificScope
import AuthForge.Authz.ScopeStrings
import AuthForge.Proof.ScopeAgreement
import AuthForge.Http.ClientCredentials
import AuthForge.Proof.CredentialAgreement
import AuthForge.Proof.DeclaredMethod
import AuthForge.Proof.AnsweredExchange
import AuthForge.Base.Captures
import AuthForge.Admin.ServiceCallbacks
import AuthForge.Proof.ServiceAnswers
import AuthForge.Base.CommandFormat
import AuthForge.Proof.RedisKeys
import AuthForge.Admin.ScopeTransaction
import AuthForge.Proof.ScopeUpdates
import AuthForge.Proof.RoleAssignment
import AuthForge.Base.Jsoncpp
import AuthForge.Identity.SocialExchange
import AuthForge.Proof.GenuineProfile
import AuthForge.Storage.CacheCallbacks
import AuthForge.Proof.AnsweredReads
import AuthForge.Base.SqlLexer
import AuthForge.Proof.LosslessSplit
import AuthForge.Proof.StatementEnds
import AuthForge.Proof.PrefixRevocation
import AuthForge.Proof.UserSearch
import AuthForge.Proof.ConnectionInfo
import AuthForge.Proof.SubjectStrings
import AuthForge.Proof.EmailAddresses
import AuthForge.Base.Like
import AuthForge.Base.AsciiCase
import AuthForge.Base.Conninfo
import AuthForge.Admin.TokenManagement
import AuthForge.Admin.UserListing
import AuthForge.Schema.SqlSplitter
import AuthForge.Schema.SqlScanner
import AuthForge.Base.BitBuffer
import AuthForge.OAuth2.Base64Url
import AuthForge.Proof.Base64Url
import AuthForge.Storage.Consents
import AuthForge.Proof.ConsentIsolation
import AuthForge.Base.Paging
import AuthForge.Admin.Listings
import AuthForge.Proof.DashboardFigures
import AuthForge.Proof.CompletePages
import AuthForge.Sdk.ClientCredentialsAuth
import AuthForge.Proof.OneRefresh
import AuthForge.Base.JsValue
import AuthForge.Spa.ErrorAdapter
import AuthForge.Proof.ErrorNormalization
import AuthForge.Http.TokenStatus
import AuthForge.Proof.BoundedAttempts
import AuthForge.Proof.EndpointRevocation
import AuthForge.Proof.RedisCodes
import AuthForge.Proof.RedisRevocation
import AuthForge.Proof.RedisTokenAgreement
import AuthForge.Proof.ClientRequests
import AuthForge.Http.Filters
import AuthForge.Proof.LetThrough
import AuthForge.Common.ConfigManager
import AuthForge.Proof.EnvOverrides
