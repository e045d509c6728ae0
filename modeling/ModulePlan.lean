import ModulePlan.ArgumentFile
import ModulePlan.Artifact.Description
import ModulePlan.Artifact.Listing
import ModulePlan.Artifact.Manifest
import ModulePlan.CommandLine.Arguments
import ModulePlan.CommandLine.Session
import ModulePlan.CompilationUnit
import ModulePlan.CompilerOptions
import ModulePlan.Configuration
import ModulePlan.Dependency
import ModulePlan.DependencyListing
import ModulePlan.DependencyView
import ModulePlan.DistinctList
import ModulePlan.Document.Base64
import ModulePlan.Document.Binary64
import ModulePlan.Document.Calendar
import ModulePlan.Document.Graph
import ModulePlan.Document.NumberSet
import ModulePlan.Document.Refusal
import ModulePlan.Document.Toml.Reader
import ModulePlan.Document.Toml.Scalar
import ModulePlan.Document.Toml.Table
import ModulePlan.Document.Value
import ModulePlan.Document.Yaml.Construction
import ModulePlan.Document.Yaml.Node
import ModulePlan.Document.Yaml.Number
import ModulePlan.Document.Yaml.Passage
import ModulePlan.Document.Yaml.Portion
import ModulePlan.Document.Yaml.Reader
import ModulePlan.Document.Yaml.Scalar
import ModulePlan.Document.Yaml.Scan
import ModulePlan.Document.Yaml.Tag
import ModulePlan.Document.Yaml.Token
import ModulePlan.Document.Yaml.Writer
import ModulePlan.Fault
import ModulePlan.FilePath
import ModulePlan.FileTree
import ModulePlan.Host
import ModulePlan.JavaSource
import ModulePlan.KeyedList
import ModulePlan.Location
import ModulePlan.Main
import ModulePlan.MavenProject
import ModulePlan.ModuleDeclaration
import ModulePlan.ModuleName
import ModulePlan.ModulePatch
import ModulePlan.Patch.Declaration
import ModulePlan.Patch.Fault
import ModulePlan.Patch.Overrides
import ModulePlan.Patch.Token
import ModulePlan.Plan
import ModulePlan.PlanDocument
import ModulePlan.ProjectPlan
import ModulePlan.Proofs.ArgumentFile
import ModulePlan.Proofs.Artifact
import ModulePlan.Proofs.CompilationUnit
import ModulePlan.Proofs.CompilationUnit.History
import ModulePlan.Proofs.CompilationUnit.Names
import ModulePlan.Proofs.CompilerOptions
import ModulePlan.Proofs.DependencyView
import ModulePlan.Proofs.DistinctList
import ModulePlan.Proofs.FileTree
import ModulePlan.Proofs.Host
import ModulePlan.Proofs.KeyedList
import ModulePlan.Proofs.ModulePatch
import ModulePlan.Proofs.ModulePatch.Recovery
import ModulePlan.Proofs.Patch.Default
import ModulePlan.Proofs.Patch.Grammar
import ModulePlan.Proofs.Patch.Meaning
import ModulePlan.Proofs.Patch.ProperNames
import ModulePlan.Proofs.Patch.Scanning
import ModulePlan.Proofs.Plan.DefaultFiles
import ModulePlan.Proofs.Plan.DefaultPatches
import ModulePlan.Proofs.Plan.Making
import ModulePlan.Proofs.Plan.Members
import ModulePlan.Proofs.Plan.OptionForms
import ModulePlan.Proofs.Plan.OptionKeys
import ModulePlan.Proofs.Plan.OwnPatches
import ModulePlan.Proofs.Plan.RootModules
import ModulePlan.Proofs.Report
import ModulePlan.Proofs.Source.Discovery
import ModulePlan.Proofs.Source.Grouping
import ModulePlan.Proofs.Source.ReleaseGroup
import ModulePlan.Proofs.TestModulePath.Additions
import ModulePlan.Proofs.TestModulePath.Fresh
import ModulePlan.Proofs.TestModulePath.Pass
import ModulePlan.Proofs.TestModulePath.Reachability
import ModulePlan.Proofs.TestModulePath.Repetition
import ModulePlan.Proofs.Text.Fields
import ModulePlan.Proofs.Text.Utf8
import ModulePlan.Report
import ModulePlan.ScopeValue
import ModulePlan.Source.Directory
import ModulePlan.Source.Discovery
import ModulePlan.Source.Glob
import ModulePlan.Source.ReleaseGroup
import ModulePlan.TestModulePath
import ModulePlan.Text.Blank
import ModulePlan.Text.CaseRanges
import ModulePlan.Text.CodeRange
import ModulePlan.Text.Digit
import ModulePlan.Text.Fields
import ModulePlan.Text.Identifier
import ModulePlan.Text.IdentifierRanges
import ModulePlan.Text.Lines
import ModulePlan.Text.Lower
import ModulePlan.Text.Quoted
import ModulePlan.Text.Surrogate
import ModulePlan.Text.UnprintableRanges
import ModulePlan.Text.Utf8
import ModulePlan.Text.Word
import ModulePlan.Proofs.Plan.PatchedRoots
import ModulePlan.Proofs.ModulePatch.Merging
import ModulePlan.Proofs.CompilationUnit.Loading
import ModulePlan.Proofs.Source.Counting
import ModulePlan.Proofs.Plan.SourceFiles
import ModulePlan.Proofs.DependencyListing
import ModulePlan.Proofs.Patch.Layout
import ModulePlan.Proofs.Patch.Prediction
import ModulePlan.Proofs.Patch.FirstMisfit
import ModulePlan.Proofs.TestModulePath.Takings
import ModulePlan.Proofs.ModulePatch.TestExports
import ModulePlan.Proofs.Patch.Covering
import ModulePlan.Proofs.DependencyView.History
import ModulePlan.Proofs.MavenProject
import ModulePlan.Proofs.Artifact.Manifest
import ModulePlan.Proofs.Text.Blank
import ModulePlan.Proofs.Patch.LineEnds
import ModulePlan.Proofs.Source.Outputs
import ModulePlan.Proofs.Artifact.Archive
import ModulePlan.Proofs.Artifact.Declaration
import ModulePlan.Proofs.Artifact.Listing
import ModulePlan.Proofs.DistinctList.History
import ModulePlan.Proofs.DependencyListing.Refusal
import ModulePlan.Proofs.Document.Toml
import ModulePlan.Proofs.Configuration
import ModulePlan.Proofs.JavaSource
import ModulePlan.Proofs.JavaSource.Cutting
import ModulePlan.Proofs.JavaSource.Layout
import ModulePlan.Proofs.JavaSource.Name
import ModulePlan.Proofs.JavaSource.Search
import ModulePlan.Proofs.JavaSource.Preamble
import ModulePlan.Proofs.ModuleDeclaration
