import LanBunker.Knockout.Round
import LanBunker.Knockout.Chain
import LanBunker.Ordered.Groups
import LanBunker.Ordered.Sorting
import LanBunker.Relational.Lookup
import LanBunker.Relational.Join
import LanBunker.Relational.Text
import LanBunker.Relational.Windows
import LanBunker.Interleaving.Program
import LanBunker.Interleaving.System
import LanBunker.Interleaving.Rely
import LanBunker.Interleaving.Serial
import LanBunker.Interleaving.Script
import LanBunker.Interleaving.Alone
import LanBunker.Interleaving.Beside
import LanBunker.Interleaving.Layer
import LanBunker.Interleaving.Manners
import LanBunker.Interleaving.Keeping
import LanBunker.Bits.Packing
import LanBunker.Utf16.Units
import LanBunker.Utf16.Chars
import LanBunker.Utf16.Replace
import LanBunker.Ecma.Strings
import LanBunker.Ecma.Numbers
import LanBunker.Models.Text
import LanBunker.Models.Id
import LanBunker.Models.Player
import LanBunker.Models.Auth
import LanBunker.Models.Bracket
import LanBunker.Models.Tournament
import LanBunker.Models.Points
import LanBunker.Models.Event
import LanBunker.Models.Pagination
import LanBunker.Models.Rivalry
import LanBunker.Models.Glyph
import LanBunker.Models.Wire
import LanBunker.Brackets.Position
import LanBunker.Brackets.Invariant
import LanBunker.Brackets.Generate
import LanBunker.Brackets.Representation
import LanBunker.Brackets.Rows
import LanBunker.Brackets.Grouping
import LanBunker.Brackets.Changes
import LanBunker.Brackets.Draw
import LanBunker.Brackets.Elimination
import LanBunker.Points.Awards
import LanBunker.Points.Payout
import LanBunker.Storage.Database
import LanBunker.Storage.Players
import LanBunker.Storage.Points
import LanBunker.Storage.Standings
import LanBunker.Storage.Events
import LanBunker.Storage.Tournaments
import LanBunker.Storage.Columns
import LanBunker.Storage.Stored
import LanBunker.Storage.Matches
import LanBunker.Storage.Lists
import LanBunker.Storage.Transactions
import LanBunker.Effects.Ledger
import LanBunker.Effects.Events
import LanBunker.Effects.Players
import LanBunker.Effects.Tournaments
import LanBunker.Effects.Operations
import LanBunker.Services.Operation
import LanBunker.Services.Service
import LanBunker.Services.Alone
import LanBunker.Services.Beside
import LanBunker.Services.Auth
import LanBunker.Services.Events
import LanBunker.Services.Players
import LanBunker.Services.Tournaments
import LanBunker.Services.Requests
import LanBunker.Services.Provenance
import LanBunker.Services.Writes
import LanBunker.Tournaments.Seeding
import LanBunker.Tournaments.Board
import LanBunker.Tournaments.Results
import LanBunker.Tournaments.Changes
import LanBunker.Tournaments.Refinement
import LanBunker.Tournaments.Runs
import LanBunker.Tournaments.Entries
import LanBunker.Tournaments.Capacity
import LanBunker.Tournaments.Conclusion
import LanBunker.Tournaments.Accepted
import LanBunker.Tournaments.Alone
import LanBunker.Tournaments.Clicks
import LanBunker.Tournaments.Field
import LanBunker.Tournaments.Final
import LanBunker.Tournaments.Detail
import LanBunker.Tournaments.Reports
import LanBunker.Tournaments.Answers
import LanBunker.Tournaments.Status
import LanBunker.Tournaments.Editor
import LanBunker.Tournaments.Served
import LanBunker.Tournaments.Session
import LanBunker.Accounts.Moves
import LanBunker.Accounts.Entries
import LanBunker.Accounts.Admins
import LanBunker.Accounts.Credentials
import LanBunker.Accounts.Passwords
import LanBunker.Accounts.Tokens
import LanBunker.Accounts.Leaderboard
import LanBunker.Accounts.Cycles
import LanBunker.Events.Doors
import LanBunker.Events.Checkins
import LanBunker.Events.Receipts
import LanBunker.Events.Door
import LanBunker.Events.Table
import LanBunker.Matches.Sides
import LanBunker.Matches.Wins
import LanBunker.Matches.Story
import LanBunker.Matches.Nemesis
import LanBunker.Matches.Log
import LanBunker.Site.Poster
import LanBunker.Site.Paging
import LanBunker.Site.Timestamp
import LanBunker.Site.Schemas
import LanBunker.Site.Forms
import LanBunker.Site.ConfirmForm
import LanBunker.Site.LiveBracket
import LanBunker.Http.Errors
import LanBunker.Http.Access
import LanBunker.Http.Operation
import LanBunker.Http.Routes
import LanBunker.Http.Confined
import LanBunker.Http.Grants
import LanBunker.Http.Authority
import LanBunker.Http.Runs
import LanBunker.Http.Handles
import LanBunker.Http.Tokens
import LanBunker.Http.Tables
import LanBunker.Http.Pages
