import Glmaxx.Proof.Scheduling.Runs

namespace Glmaxx.Proof.Scheduling
open Std Library Cache Engine Glmaxx.Scheduling Glmaxx.Scheduling.Scheduler

variable {entry : GraphEntry} {entries : List GraphEntry}

variable {s s' t : Scheduler} {counter : Counter} {kind : BatchKind} {sampling : SamplingCollective}
  {rows : List BatchRow} {batch : ScheduledBatch} {eligible requests : List Request} {request : Request}
  {active queryRows : Nat} {state : RequestState}

section Order

end Order

section Prompts

def remaining (request : Request) : Nat := request.spec.promptTokens.toNat - request.promptDone

end Prompts

section Rule

end Rule

end Glmaxx.Proof.Scheduling
