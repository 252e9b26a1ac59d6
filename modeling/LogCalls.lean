import LogCalls.Main
import LogCalls.Proofs.Migration.Locals
import LogCalls.Proofs.Migration.Qualified
import LogCalls.Proofs.Emission.Parentheses
import LogCalls.Proofs.Imports.Clashes
import LogCalls.Proofs.Order.Transform
import LogCalls.Proofs.Emission.Concatenation
import LogCalls.Proofs.Template.Formatter
import LogCalls.Proofs.Rule.SpreadArray
import LogCalls.Proofs.Order.Bundle
import LogCalls.Proofs.Engine.Unrelated
import LogCalls.Proofs.CommandLine.Batch
import LogCalls.Proofs.CallSite.LoneArray
import LogCalls.Proofs.Rule.Parameterize
import LogCalls.Proofs.Tree.Renaming
import LogCalls.Proofs.Pattern.Language
import LogCalls.Proofs.Rule.Format
import LogCalls.Proofs.Rule.MergedPairs
import LogCalls.Proofs.Engine.Accounting
