import SqlRouting.Main
import SqlRouting.Proofs.Agreement
import SqlRouting.Proofs.AssignedNames
import SqlRouting.Proofs.ColumnMatches
import SqlRouting.Proofs.Conditions
import SqlRouting.Proofs.CutUpdates
import SqlRouting.Proofs.DialectExtension
import SqlRouting.Proofs.ErrorSpans
import SqlRouting.Proofs.ExpressionTokens
import SqlRouting.Proofs.Groups
import SqlRouting.Proofs.Independence
import SqlRouting.Proofs.Indifference
import SqlRouting.Proofs.InsertionOrder
import SqlRouting.Proofs.Limits
import SqlRouting.Proofs.Progress
import SqlRouting.Proofs.Qualifiers
import SqlRouting.Proofs.QuotedNames
import SqlRouting.Proofs.Replacements
import SqlRouting.Proofs.Reports
import SqlRouting.Proofs.ResolvedAliases
import SqlRouting.Proofs.Respacing
import SqlRouting.Proofs.Rewriting
import SqlRouting.Proofs.Settled
import SqlRouting.Proofs.TableAliases
import SqlRouting.Proofs.TableRecords
import SqlRouting.Proofs.WellFormed
