import Sqlate.Base.SortedMap
import Sqlate.Base.Runs
import Sqlate.Base.Connectives
import Sqlate.Base.Writes
import Sqlate.Qt.QString
import Sqlate.Qt.PlaceMarkers
import Sqlate.Qt.QVariant
import Sqlate.SqlText
import Sqlate.Condition
import Sqlate.BuilderBase
import Sqlate.ConditionReading
import Sqlate.ConditionExpr
import Sqlate.SelectQueryBuilder
import Sqlate.ColumnLabels
import Sqlate.UpdateDeleteQueryBuilder
import Sqlate.InsertQueryBuilder
import Sqlate.PreparedQuery
import Sqlate.InsertBinding
import Sqlate.StatementExprs
import Sqlate.QueryBuilders
import Sqlate.Chains
import Sqlate.QueryCache
import Sqlate.CacheTransparency
import Sqlate.Placeholders
import Sqlate.DeleteBinding
import Sqlate.CombinedQueries
import Sqlate.Reassembly
import Sqlate.FailedPreparation
import Sqlate.ValueErasure
import Sqlate.Session
import Sqlate.Transaction
import Sqlate.TransactionCounts
import Sqlate.OpenTransactions
import Sqlate.RepeatedEnding
import Sqlate.NestedRollback
import Sqlate.CommitDurability
import Sqlate.QueryManager
import Sqlate.Reconnect
import Sqlate.ProcessSteps
import Sqlate.MutexDiscipline
import Sqlate.QueryRegistry
import Sqlate.RestoredQueries
import Sqlate.Notifications
import Sqlate.SqlUtils
import Sqlate.SplitQueries
import Sqlate.CommentStripping
import Sqlate.SelectGrammar
import Sqlate.SelectRequest
import Sqlate.SelectReading
import Sqlate.SelectBalance
import Sqlate.SelectSentence
import Sqlate.LockModes
import Sqlate.BatchExec
import Sqlate.BatchAtomicity
import Sqlate.SchemaUpdater
import Sqlate.UpdateProgress
import Sqlate.UpdateRequests
import Sqlate.MissingTables
import Sqlate.SchemaStatements
import Sqlate.NotificationRules
import Sqlate.SchemaPermissions
import Sqlate.ValueChannels
import Sqlate.MonitorSignals
import Sqlate.ColumnIdentifiers
import Sqlate.CaseInsensitivity
import Sqlate.Base.Brackets
import Sqlate.Base.Readers
import Sqlate.UnionGrammar
import Sqlate.CombinedStatements
import Sqlate.TableGrammar
import Sqlate.TableCreation
import Sqlate.TableReading
import Sqlate.StatementServer
import Sqlate.ConditionMeaning
import Sqlate.StatementRequests
import Sqlate.StatementEffects
import Sqlate.UpdateEffects
import Sqlate.InsertEffects
import Sqlate.StatementParameters
import Sqlate.StatementRuns
import Sqlate.SelectServer
import Sqlate.SelectAnswers
import Sqlate.Base.Processes
import Sqlate.QueryWatcher
import Sqlate.RuleNotifications
import Sqlate.ChangeFeed
import Sqlate.ColumnTriggers
import Sqlate.AccessControl
import Sqlate.ChainEffects
import Sqlate.TableServer
import Sqlate.TableOrder
import Sqlate.TableMigration
