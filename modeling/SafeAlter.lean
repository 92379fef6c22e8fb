import SafeAlter.History
import SafeAlter.Main
import SafeAlter.Proofs.Backup.Account
import SafeAlter.Proofs.Backup.SharedPaths
import SafeAlter.Proofs.Configuration.Usable
import SafeAlter.Proofs.Dsn.Credentials
import SafeAlter.Proofs.Dsn.DriverSettings
import SafeAlter.Proofs.Dsn.WrittenForms
import SafeAlter.Proofs.Execution.Account
import SafeAlter.Proofs.Execution.AppliedOnce
import SafeAlter.Proofs.Execution.BackupFirst
import SafeAlter.Proofs.Execution.Concealment
import SafeAlter.Proofs.Execution.DebugRecords
import SafeAlter.Proofs.Execution.DryRunGate
import SafeAlter.Proofs.Execution.OtherStatements
import SafeAlter.Proofs.Sql.Classification
import SafeAlter.Proofs.Sql.ClauseByWords
import SafeAlter.Proofs.Sql.Concatenation
import SafeAlter.Proofs.Sql.HintCounts
import SafeAlter.Proofs.Sql.Hints
import SafeAlter.Proofs.Sql.NameAndClause
import SafeAlter.Proofs.Sql.Nameless
import SafeAlter.Proofs.Sql.Rejoined
import SafeAlter.Proofs.Sql.Slices
import SafeAlter.Proofs.Sql.Specifications
import SafeAlter.Proofs.Sql.Terminated
import SafeAlter.Proofs.Sql.WrittenStatement
import SafeAlter.Proofs.Text.Words
import SafeAlter.Proofs.Tool.MaskedOutput
import SafeAlter.Proofs.Tool.MaskedPlace
import SafeAlter.Proofs.Validation.Consistency
import SafeAlter.Proofs.Validation.Isolation
import SafeAlter.Proofs.Validation.ReadOnly
