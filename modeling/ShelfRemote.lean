import ShelfRemote.Lib.Runs
import ShelfRemote.Lib.Ledger
import ShelfRemote.Lib.Framing
import ShelfRemote.Lib.Scans
import ShelfRemote.Lib.Views
import ShelfRemote.Lib.Tables
import ShelfRemote.Lib.Separated
import ShelfRemote.Qt.Json
import ShelfRemote.Qt.Url
import ShelfRemote.Qt.ByteArray
import ShelfRemote.Storage.Cipher
import ShelfRemote.Storage.SecureStore
import ShelfRemote.Storage.Portal
import ShelfRemote.Storage.MasterKey
import ShelfRemote.Storage.Contexts
import ShelfRemote.Storage.Launches
import ShelfRemote.Storage.Switching
import ShelfRemote.Storage.Rows
import ShelfRemote.Net.Endpoints
import ShelfRemote.Net.ContentUrl
import ShelfRemote.Net.ApiClient
import ShelfRemote.Net.Delivery
import ShelfRemote.Net.SameBase
import ShelfRemote.Storage.Database
import ShelfRemote.Storage.Forgetting
import ShelfRemote.Net.Outbox
import ShelfRemote.Auth.Secrets
import ShelfRemote.Auth.TokenStore
import ShelfRemote.Auth.SingleFlight
import ShelfRemote.Auth.Tracking
import ShelfRemote.Auth.Busy
import ShelfRemote.Auth.Account
import ShelfRemote.Auth.AuthManager
import ShelfRemote.Auth.Handlers
import ShelfRemote.Auth.Closed
import ShelfRemote.Auth.Isolation
import ShelfRemote.Auth.SavedSession
import ShelfRemote.Auth.ServerKey
import ShelfRemote.Auth.Durability
import ShelfRemote.Auth.Cancel
import ShelfRemote.Auth.Oidc
import ShelfRemote.Auth.Rotation
import ShelfRemote.Player.MpvController
import ShelfRemote.Player.PlaybackSession
import ShelfRemote.Player.Books
import ShelfRemote.Player.Listening
import ShelfRemote.Auth.Narration
import ShelfRemote.App.Wiring
import ShelfRemote.Player.Tracks
import ShelfRemote.Player.Seeks
import ShelfRemote.Player.Course
import ShelfRemote.Player.Moves
import ShelfRemote.Player.Steady
import ShelfRemote.Player.Protocol
import ShelfRemote.Player.Credit
import ShelfRemote.Player.Bearer
import ShelfRemote.Player.Timeline
import ShelfRemote.Player.Hearing
import ShelfRemote.Player.Pulse
import ShelfRemote.Player.SleepTimer
import ShelfRemote.Player.Backlog
import ShelfRemote.Player.ChapterEnd
import ShelfRemote.Player.Chapters
import ShelfRemote.Player.Notices
import ShelfRemote.Player.Advance
import ShelfRemote.Model.BookmarkStore
import ShelfRemote.Model.Bookmarks
import ShelfRemote.Model.LibraryItemsModel
import ShelfRemote.Model.ProgressStore
import ShelfRemote.Model.Shelves
import ShelfRemote.Model.HomeRows
import ShelfRemote.Model.Pages
import ShelfRemote.Model.Loading
import ShelfRemote.App.Backend
import ShelfRemote.App.Libraries
import ShelfRemote.App.Callbacks
import ShelfRemote.App.Instance
import ShelfRemote.App.Forwarding
import ShelfRemote.App.Reset
import ShelfRemote.App.NextUp
import ShelfRemote.App.Installation
import ShelfRemote.App.Offline
import ShelfRemote.App.Client
import ShelfRemote.App.Finished
import ShelfRemote.Model.Fractions
import ShelfRemote.Storage.Covers
import ShelfRemote.Player.Mpris
import ShelfRemote.Storage.ItemCache
import ShelfRemote.Storage.CoverPaths
import ShelfRemote.Storage.CoverCache
import ShelfRemote.App.Grid
import ShelfRemote.Auth.Possession
