import Glmaxx.Proof.Residency.Runs

namespace Glmaxx.Proof.Residency
open Std Library Cache Cache.ResidencyManager

variable {m : ResidencyManager} {config : ResidencyConfig} {incoming release : Nat} {excluded : Bytes32}
  {plan : HbmAdmissionPlan} {candidates : List Candidate}

end Glmaxx.Proof.Residency
