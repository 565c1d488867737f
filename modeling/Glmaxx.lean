import Glmaxx.Proof.Sequence.Quarantine
import Glmaxx.Proof.Delta.Exchange
import Glmaxx.Proof.Restore.Drain
import Glmaxx.Proof.Scheduling.Starvation
import Glmaxx.Proof.Scheduling.Executable
import Glmaxx.Proof.Admission.Runs
import Glmaxx.Proof.Capacity.Plan
import Glmaxx.Proof.Attention
import Glmaxx.Proof.Descriptors
import Glmaxx.Proof.Restore.Delivery
import Glmaxx.Proof.TierJournal
import Glmaxx.Proof.Prefix.Exact
import Glmaxx.Proof.Tokenizer.Cuts
import Glmaxx.Proof.Scheduling.Rule
import Glmaxx.Proof.Digests
import Glmaxx.Proof.Tokenizer.Prompt
import Glmaxx.Proof.Delta.Digest
import Glmaxx.Proof.DirectSchedule.Idle
import Glmaxx.Proof.Residency.Batch
import Glmaxx.Proof.Residency.Lru
import Glmaxx.Proof.Format.Scales
import Glmaxx.Proof.Format.Crc32c
