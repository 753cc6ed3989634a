import StreamConfig.Command.Directory
import StreamConfig.Main
import StreamConfig.Schema.Outline
import StreamConfig.Proofs.Pruning.Idempotence
import StreamConfig.Proofs.Linting.Acceptance
import StreamConfig.Proofs.Json.Exactness
import StreamConfig.Proofs.Linting.Collisions
import StreamConfig.Proofs.Value.Distinct
import StreamConfig.Proofs.Pruning.Deletion
import StreamConfig.Proofs.Pruning.KeyOrder
import StreamConfig.Proofs.Pruning.Remains
import StreamConfig.Proofs.Pruning.Cleanliness
import StreamConfig.Proofs.Linting.Counting
import StreamConfig.Proofs.Linting.Walks
import StreamConfig.Proofs.Linting.AfterPruning
import StreamConfig.Proofs.Schema.History
import StreamConfig.Proofs.Command.LintRuns
import StreamConfig.Proofs.Refreshes
import StreamConfig.Proofs.Linting.Layout
import StreamConfig.Proofs.Schema.Denotation
import StreamConfig.Proofs.Pruning.Survivors
import StreamConfig.Proofs.Json.Strings
import StreamConfig.Proofs.Yaml.Located
import StreamConfig.Proofs.Pruning.FieldOrder
import StreamConfig.Proofs.Pruning.Failures
import StreamConfig.Proofs.Linting.LabelRuns
import StreamConfig.Proofs.Document.ByteScan
import StreamConfig.Proofs.Nesting.Ending
