import FixedFragment.Blend.Equation
import FixedFragment.Emission
import FixedFragment.Glsl.Parser
import FixedFragment.Glsl.Typing
import FixedFragment.ShaderCache
import FixedFragment.ShaderInput
import FixedFragment.Uniforms
import FixedFragment.Proofs.CacheAccounting
import FixedFragment.Proofs.CacheTransparency
import FixedFragment.Proofs.DeclarationUse
import FixedFragment.Proofs.DialectErasure
import FixedFragment.Proofs.DoubledSourceAlpha
import FixedFragment.Proofs.DrawConservation
import FixedFragment.Proofs.FailingSinks
import FixedFragment.Proofs.OpaqueTextures
import FixedFragment.Proofs.PolicyEffects
import FixedFragment.Proofs.QuantizerAgreement
import FixedFragment.Proofs.QuietWrites
import FixedFragment.Proofs.ReachableIdentifiers
import FixedFragment.Proofs.RecordedDraws
import FixedFragment.Proofs.ShaderMeaning
import FixedFragment.Proofs.ShaderTyping
import FixedFragment.Proofs.SourceKernel
import FixedFragment.Proofs.StatisticsText
import FixedFragment.Proofs.TestElimination
import FixedFragment.Proofs.TestOperands
import FixedFragment.Proofs.TextLength
import FixedFragment.Proofs.UniformBlock
import FixedFragment.Proofs.VendorNames
import FixedFragment.Proofs.WordLayouts
import FixedFragment.Proofs.WriterRuns
