import DepBundle.Analysis.Pipeline
import DepBundle.Analysis.ResolutionMap
import DepBundle.Chunk.Render
import DepBundle.CommandLine.Report
import DepBundle.Compile.Build
import DepBundle.Main
import DepBundle.Module.Body
import DepBundle.Module.Plain
import DepBundle.Package.Synthesis
import DepBundle.Resolution.Resolver
import DepBundle.Workspace.Packing
import DepBundle.Proofs.Analysis.Artifacts
import DepBundle.Proofs.Analysis.Dependencies
import DepBundle.Proofs.Analysis.History
import DepBundle.Proofs.Analysis.Selection
import DepBundle.Proofs.Analysis.Transpile
import DepBundle.Proofs.Chunk.ImportPath
import DepBundle.Proofs.Chunk.Serving
import DepBundle.Proofs.Compile.Numbering
import DepBundle.Proofs.Graph.Evaluation
import DepBundle.Proofs.Package.Offer
import DepBundle.Proofs.Analysis.Validation
import DepBundle.Proofs.CommandLine.Packing
import DepBundle.Proofs.Analysis.Synthesized
import DepBundle.Proofs.Analysis.Accumulation
import DepBundle.Proofs.Graph.Stars
import DepBundle.Proofs.Workspace.Interleaving
import DepBundle.Proofs.Analysis.Confinement
import DepBundle.Proofs.Chunk.FileNames
import DepBundle.Proofs.Analysis.Loading
import DepBundle.Proofs.Module.ImportUses
import DepBundle.Proofs.Workspace.Discovery
import DepBundle.Proofs.Workspace.Copying
import DepBundle.Proofs.Module.Assigned
