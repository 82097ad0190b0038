import EntityModel.Main
import EntityModel.Proofs.Acceptance
import EntityModel.Proofs.Ambiguity
import EntityModel.Proofs.Anchoring
import EntityModel.Proofs.Association
import EntityModel.Proofs.Components
import EntityModel.Proofs.Depth
import EntityModel.Proofs.Disambiguation
import EntityModel.Proofs.Discovery
import EntityModel.Proofs.EagerChecks
import EntityModel.Proofs.Folding
import EntityModel.Proofs.Forest
import EntityModel.Proofs.Hashing
import EntityModel.Proofs.Idempotence
import EntityModel.Proofs.Layout
import EntityModel.Proofs.LoopReports
import EntityModel.Proofs.Nearest
import EntityModel.Proofs.NullableNames
import EntityModel.Proofs.Overrides
import EntityModel.Proofs.Rebasing
import EntityModel.Proofs.References
import EntityModel.Proofs.Reinsertion
import EntityModel.Proofs.Reordering
import EntityModel.Proofs.Resolvability
import EntityModel.Proofs.Scalars
import EntityModel.Proofs.SelfContained
import EntityModel.Proofs.Shadowing
import EntityModel.Proofs.Switch
import EntityModel.Proofs.TypeSoundness
import EntityModel.Proofs.Uniqueness
import EntityModel.Proofs.Verdict
import EntityModel.Proofs.Walk
