import TodoRust.Lib.Prog
import TodoRust.Lib.Run
import TodoRust.Lib.TokenBucket
import TodoRust.Rust.Str
import TodoRust.Rust.IpAddr
import TodoRust.Rust.Number
import TodoRust.RateLimit.Limiter
import TodoRust.RateLimit.Admission
import TodoRust.RateLimit.Concurrent
import TodoRust.Domain.Types
import TodoRust.Rust.Http
import TodoRust.RateLimit.ClientIp
import TodoRust.Storage.Database
import TodoRust.World
import TodoRust.App.Error
import TodoRust.I18n.Locale
import TodoRust.App.Cache
import TodoRust.App.State
import TodoRust.App.Routes
import TodoRust.Login.SafeNext
import TodoRust.Login.Redirect
import TodoRust.Todos.Title
import TodoRust.Lib.Sorted
import TodoRust.Todos.Listing
import TodoRust.Todos.ListEffects
import TodoRust.App.Rules
import TodoRust.Requests.Failed
import TodoRust.Lib.Pool
import TodoRust.Requests.Service
import TodoRust.Requests.Isolation
import TodoRust.Accounts.Registry
import TodoRust.Accounts.Identity
import TodoRust.Accounts.Preferences
import TodoRust.Requests.ReadYourWrites
import TodoRust.I18n.Negotiate
import TodoRust.Lib.Split
import TodoRust.Middleware.I18n
import TodoRust.Observability.OtelContext
import TodoRust.Preferences.Override
import TodoRust.Middleware.Cookies
import TodoRust.I18n.DateTime
import TodoRust.I18n.Minijinja
import TodoRust.I18n.Timezone
import TodoRust.I18n.FormatterBound
import TodoRust.Lib.Memo
import TodoRust.Lib.Nesting
import TodoRust.I18n.FormatterCache
import TodoRust.Lib.Markup
import TodoRust.I18n.TimeElement
import TodoRust.I18n.Rfc3339
import TodoRust.I18n.SupportedYears
import TodoRust.I18n.Upgrade
import TodoRust.Middleware.HttpMetrics
import TodoRust.StaticFiles.Manifest
import TodoRust.StaticFiles.Walk
import TodoRust.StaticFiles.HashedUrls
import TodoRust.StaticFiles.Serve
import TodoRust.StaticFiles.ContentCoding
import TodoRust.StaticFiles.AssetUrls
import TodoRust.StaticFiles.Agreement
import TodoRust.Router.Layers
import TodoRust.Router.Endpoints
import TodoRust.Router.Headers
import TodoRust.Router.Assembly
import TodoRust.Router.Caching
import TodoRust.Requests.Faulty
import TodoRust.Requests.Staleness
import TodoRust.Preferences.Visits
import TodoRust.Preferences.Resolution
import TodoRust.Settings.Environment
import TodoRust.Settings.Config
import TodoRust.Settings.Verbatim
import TodoRust.Router.RequestId
import TodoRust.App.ValidationMessages
import TodoRust.StaticFiles.InjectHash
import TodoRust.Preview.FileSystem
import TodoRust.Preview.Fixtures
import TodoRust.Preview.Stories
import TodoRust.Preview.Discovery
import TodoRust.Preview.Routes
import TodoRust.Preview.Confinement
import TodoRust.Lib.Coded
import TodoRust.Preview.Browser
import TodoRust.Preview.Links
import TodoRust.Lib.Simulation
import TodoRust.App.Effects
import TodoRust.Visits.WithoutRedis
import TodoRust.Visits.Sessions
import TodoRust.Visits.Ownership
import TodoRust.Lib.Base64
import TodoRust.Lib.Policy
import TodoRust.Middleware.CspNonce
import TodoRust.Lib.Except
import TodoRust.Lib.Html
import TodoRust.Router.HandlerPages
import TodoRust.Router.PageNonce
import TodoRust.Router.SecurityHeaders
import TodoRust.Lib.Uniform
import TodoRust.Visits.Strangers
import TodoRust.Lib.Linearizable
import TodoRust.Todos.Atomic
import TodoRust.RateLimit.Gate
import TodoRust.RateLimit.Guesses
import TodoRust.Accounts.DevUser
import TodoRust.Requests.Disclosure
import TodoRust.Pages.Template
import TodoRust.Pages.Reading
import TodoRust.Pages.Templates
import TodoRust.Pages.Environment
import TodoRust.Pages.Markup
import TodoRust.Pages.Tags
import TodoRust.Pages.Decisions
import TodoRust.Pages.Values
import TodoRust.Pages.Served
import TodoRust.Lib.Ensures
import TodoRust.Todos.Answers
import TodoRust.Todos.Shown
