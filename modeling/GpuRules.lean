import GpuRules.Proofs.Concatenation
import GpuRules.Proofs.DirectReading
import GpuRules.Proofs.Equality.RuleSet
import GpuRules.Proofs.PlatformFilter
import GpuRules.Proofs.Publication
import GpuRules.Proofs.Rebuild
import GpuRules.Proofs.Spelling.RuleSet
import GpuRules.Proofs.Validity.Skeleton
import GpuRules.Proofs.EqualVersions
import GpuRules.Proofs.Coherence
import GpuRules.Proofs.UnknownKeys
import GpuRules.Proofs.Version.Dates
import GpuRules.Proofs.Polarity
import GpuRules.Proofs.Version.Interval
import GpuRules.Proofs.Version.Lexical
import GpuRules.Proofs.RuleLists
import GpuRules.Proofs.Version.Decimals
import GpuRules.Proofs.Version.Display
import GpuRules.Proofs.Diagnostics
import GpuRules.Proofs.Reports.Account
import GpuRules.Proofs.LoadLog
import GpuRules.Proofs.Text.Pieces
import GpuRules.Proofs.PciId
import GpuRules.Proofs.Version.Chronology
import GpuRules.Proofs.ScoreRanges
import GpuRules.Proofs.OsRelease
import GpuRules.Proofs.Metadata
import GpuRules.Proofs.Faults
