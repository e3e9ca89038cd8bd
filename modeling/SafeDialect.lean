import SafeDialect.Program.Body
import SafeDialect.Program.Consistency
import SafeDialect.Program.Assembly
import SafeDialect.Text.Json.Reader
import SafeDialect.Text.Json.Writer
import SafeDialect.Interchange.TranslationUnit
import SafeDialect.Names.Spelling
import SafeDialect.Setting.Kinds
import SafeDialect.Classifier.Judge
import SafeDialect.Rules.Checker
import SafeDialect.Report.Render
import SafeDialect.Config.Reader
import SafeDialect.Main
import SafeDialect.Proofs.Program.Parents
import SafeDialect.Proofs.Classifier.SafeChains
import SafeDialect.Proofs.Classifier.DeterministicChains
import SafeDialect.Proofs.Classifier.ByParams
import SafeDialect.Proofs.Ledger.History
import SafeDialect.Proofs.Lifetime.Order
import SafeDialect.Proofs.Lifetime.Receiver
import SafeDialect.Proofs.Rules.Checker
import SafeDialect.Proofs.Rules.Independence
import SafeDialect.Proofs.Setting.Trust
import SafeDialect.Proofs.Classifier.Broader
import SafeDialect.Proofs.Rules.Reports
import SafeDialect.Proofs.Rules.Variables
import SafeDialect.Proofs.Classifier.Kinds
import SafeDialect.Proofs.Rules.Comparison
import SafeDialect.Proofs.Rules.Grouping
import SafeDialect.Proofs.Rules.MoreTrust
import SafeDialect.Proofs.Program.Retype
import SafeDialect.Proofs.Setting.Desugar
import SafeDialect.Proofs.Classifier.Lockstep
import SafeDialect.Proofs.Classifier.Synonyms
import SafeDialect.Proofs.Lifetime.Synonyms
import SafeDialect.Proofs.Rules.Synonyms
import SafeDialect.Proofs.Classifier.Reuse
import SafeDialect.Proofs.Lifetime.Nesting
import SafeDialect.Proofs.Program.Growth
import SafeDialect.Proofs.Program.Assembly
import SafeDialect.Proofs.Program.Operations
import SafeDialect.Proofs.Program.Settling
import SafeDialect.Proofs.Text.Json
import SafeDialect.Proofs.Interchange.Encodes
import SafeDialect.Proofs.Interchange.Type
import SafeDialect.Proofs.Interchange.Expr
import SafeDialect.Proofs.Interchange.TranslationUnit
import SafeDialect.Proofs.Program.TypeIndex
import SafeDialect.Proofs.Classifier.Explanations
import SafeDialect.Proofs.Classifier.Termination
import SafeDialect.Proofs.Rules.KeptArguments
import SafeDialect.Proofs.Classifier.NakedStructs
import SafeDialect.Proofs.Lifetime.Unmodelled
import SafeDialect.Proofs.Program.Preorder
import SafeDialect.Proofs.Names.Qualified
