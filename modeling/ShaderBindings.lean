import ShaderBindings.Binding.Dispatch
import ShaderBindings.Main
import ShaderBindings.Proofs.Dictionary
import ShaderBindings.Proofs.Grouping
import ShaderBindings.Proofs.Partition
import ShaderBindings.Proofs.Joins
import ShaderBindings.Proofs.Analysis
import ShaderBindings.Proofs.Branches
import ShaderBindings.Proofs.Parameters
import ShaderBindings.Proofs.Dispatch
import ShaderBindings.Proofs.Execution
import ShaderBindings.Proofs.Fault
import ShaderBindings.Proofs.WellFormed
import ShaderBindings.Proofs.Generics
import ShaderBindings.Proofs.Unification
import ShaderBindings.Proofs.Codegen
import ShaderBindings.Proofs.Registry
import ShaderBindings.Proofs.Admission
import ShaderBindings.Proofs.Loading
import ShaderBindings.Proofs.Synthesis
import ShaderBindings.Proofs.Accounting
import ShaderBindings.Proofs.Reachability
import ShaderBindings.Proofs.Typing
import ShaderBindings.Proofs.Shapes
import ShaderBindings.Proofs.Defaults
import ShaderBindings.Proofs.OmittedArguments
import ShaderBindings.Proofs.Declarations
import ShaderBindings.Proofs.Locality
import ShaderBindings.Proofs.Interleaving
import ShaderBindings.Proofs.Strictness
import ShaderBindings.Proofs.FileTree
import ShaderBindings.Proofs.Writing
import ShaderBindings.Proofs.Search
import ShaderBindings.Proofs.Splice
import ShaderBindings.Proofs.Regeneration
import ShaderBindings.Proofs.Repetition
import ShaderBindings.Proofs.Sources
import ShaderBindings.Proofs.Outcomes
import ShaderBindings.Proofs.Clashes
import ShaderBindings.Proofs.Prose
import ShaderBindings.Proofs.Origins
import ShaderBindings.Proofs.Infixes
import ShaderBindings.Proofs.Comments
import ShaderBindings.Proofs.CommentLines
import ShaderBindings.Proofs.Hygiene
import ShaderBindings.Proofs.Spelling
import ShaderBindings.Proofs.EnumCases
import ShaderBindings.Proofs.EnumDefaults
import ShaderBindings.Proofs.RuntimeTypes
import ShaderBindings.Proofs.Atomicity
import ShaderBindings.Proofs.Metadata
import ShaderBindings.Proofs.Exclusion
import ShaderBindings.Proofs.Selection
import ShaderBindings.Proofs.Table
import ShaderBindings.Proofs.Remarks
import ShaderBindings.Proofs.Availability
import ShaderBindings.Proofs.Quotation
import ShaderBindings.Proofs.Words
import ShaderBindings.Proofs.Indentation
import ShaderBindings.Proofs.Identifiers
import ShaderBindings.Proofs.Suffixes
import ShaderBindings.Proofs.TokenLists
