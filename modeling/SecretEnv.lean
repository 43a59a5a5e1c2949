import SecretEnv.Disk
import SecretEnv.Expression
import SecretEnv.Expression.Json
import SecretEnv.Json.Cursor
import SecretEnv.Json.Document
import SecretEnv.Json.Fault
import SecretEnv.Json.Numeral
import SecretEnv.Json.Shape
import SecretEnv.Json.Token
import SecretEnv.Json.Value
import SecretEnv.Json.Written
import SecretEnv.KeySorted
import SecretEnv.Line
import SecretEnv.Load
import SecretEnv.Loading
import SecretEnv.Number.Double
import SecretEnv.Number.Shortest
import SecretEnv.Proofs.Expression.Json
import SecretEnv.Proofs.Json.Document
import SecretEnv.Proofs.Json.Layout
import SecretEnv.Proofs.Json.Members
import SecretEnv.Proofs.Json.Records
import SecretEnv.Proofs.Json.Written
import SecretEnv.Proofs.KeySorted.Canonical
import SecretEnv.Proofs.KeySorted.Lookup
import SecretEnv.Proofs.Line.Form
import SecretEnv.Proofs.Line.Grammar
import SecretEnv.Proofs.Load.EndToEnd
import SecretEnv.Proofs.Load.WellFormed
import SecretEnv.Proofs.Loading.Batches
import SecretEnv.Proofs.Loading.Checks
import SecretEnv.Proofs.Loading.Order
import SecretEnv.Proofs.Loading.Stack
import SecretEnv.Proofs.Resolution.Answer
import SecretEnv.Proofs.Resolution.Outcome
import SecretEnv.Proofs.Resolution.Priming
import SecretEnv.Proofs.Resolution.Report
import SecretEnv.Proofs.Run.Completion
import SecretEnv.Proofs.Run.Trace
import SecretEnv.Proofs.Settings.Changes
import SecretEnv.Proofs.Settings.FileList
import SecretEnv.Proofs.Settings.Json
import SecretEnv.Proofs.Source.Cut
import SecretEnv.Proofs.Source.Entry
import SecretEnv.Proofs.Source.Layout
import SecretEnv.Proofs.Source.Lines
import SecretEnv.Proofs.Source.Meaning
import SecretEnv.Proofs.Source.WellFormed
import SecretEnv.Proofs.Source.Written
import SecretEnv.Proofs.Text.Lossy
import SecretEnv.Proofs.Text.Trim
import SecretEnv.Proofs.Text.Utf8
import SecretEnv.Proofs.Vault.Agreement
import SecretEnv.Proofs.Vault.History
import SecretEnv.Proofs.Vault.Item
import SecretEnv.Proofs.Vault.Memory
import SecretEnv.Proofs.Vault.Output
import SecretEnv.Proofs.Vault.ProgramRuns
import SecretEnv.Proofs.Vault.Unasked
import SecretEnv.Resolution
import SecretEnv.Run
import SecretEnv.Settings
import SecretEnv.Settings.Json
import SecretEnv.Source
import SecretEnv.Text
import SecretEnv.Text.Quoted
import SecretEnv.Text.Unprintable
import SecretEnv.Vault
import SecretEnv.Vault.CommandLine
import SecretEnv.Vault.Item
import SecretEnv.Vault.Item.Json
import SecretEnv.Vault.Memory
