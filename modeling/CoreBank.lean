import CoreBank.Database.Overdraft
import CoreBank.Database.MoneySupply
import CoreBank.Database.ConcurrentTransfers
import CoreBank.Foundation.NestedTransactions
import CoreBank.Database.SessionSettings
import CoreBank.Server.Lifecycle
import CoreBank.Server.Protocol
import CoreBank.Server.Framing
import CoreBank.Server.DataAccess
import CoreBank.Server.TruthfulReplies
import CoreBank.Foundation.Histories
import CoreBank.Server.SequentialBank
import CoreBank.Server.Availability
import CoreBank.Database.ExactTransfers
import CoreBank.Foundation.Bookkeeping
import CoreBank.Database.CoveredTransfers
import CoreBank.Server.ExistingAccounts
import CoreBank.Foundation.Changes
import CoreBank.Database.AppendOnlyLedger
import CoreBank.Database.TransferDeadlocks
import CoreBank.Foundation.FloatingPoint
import CoreBank.Server.Doubles
import CoreBank.Server.PrintedBalances
import CoreBank.Server.ReplyLines
import CoreBank.Server.WellFormedCommands
import CoreBank.Foundation.KeyValueText
import CoreBank.Server.Configuration
import CoreBank.Server.Shutdown
import CoreBank.Foundation.ScopedObjects
import CoreBank.Foundation.ScopedEndings
import CoreBank.Server.SharedConnection
import CoreBank.Foundation.FieldUpdates
import CoreBank.Server.LoadedFields
import CoreBank.Foundation.GroupedQueries
import CoreBank.Database.CustomerReport
import CoreBank.Server.CommandLine
import CoreBank.Database.RoundingDrift
import CoreBank.Foundation.WorkingOff
import CoreBank.Server.RequestedTransfers
import CoreBank.Server.ConnectionLife
import CoreBank.Foundation.Handles
import CoreBank.Foundation.HeadedMessages
import CoreBank.Server.DemoServer
import CoreBank.Foundation.ForkJoin
import CoreBank.Server.ConcurrencyDemo
import CoreBank.Database.LedgerDays
import CoreBank.Database.TransferProgress
import CoreBank.Database.FailedTransfers
import CoreBank.Foundation.ShortestDigits
import CoreBank.Server.TypedAmounts
import CoreBank.Foundation.Contributions
import CoreBank.Server.AnsweredTransfers
import CoreBank.Server.ClientCommands
import CoreBank.Server.ClientBalances
import CoreBank.Foundation.CharacterBytes
import CoreBank.Foundation.StatePrograms
import CoreBank.Server.JsonLexer
import CoreBank.Server.JsonParser
import CoreBank.Server.JsonNumbers
import CoreBank.Server.JsonTokens
import CoreBank.Server.JsonPositions
import CoreBank.Server.JsonGrammar
import CoreBank.Server.JsonTexts
import CoreBank.Server.ConfigTexts
import CoreBank.Server.ParseErrors
