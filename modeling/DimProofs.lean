import DimProofs.Host.Executor
import DimProofs.RootCi.Startup
import DimProofs.Qemu.Reopen
import DimProofs.Ordinary.EventReplay
import DimProofs.Ordinary.Revocation
import DimProofs.Ordinary.Outbox
import DimProofs.Host.AtMostOnce
import DimProofs.RootCi.Evidence
import DimProofs.NativeGit.RecordCrash
import DimProofs.Host.RootCrash
import DimProofs.NativeGit.Fairness
import DimProofs.NativeGit.PromotionCrash
import DimProofs.Qemu.AuthorityDurable
import DimProofs.ExternalUrls.Independence
import DimProofs.Lifecycle.Theorems
import DimProofs.Installer.Theorems
import DimProofs.Controller.RelayTheorems
import DimProofs.Locks.Independence
import DimProofs.Locks.Recovery
import DimProofs.Repositories.Theorems
import DimProofs.Resources.Theorems
import DimProofs.Reviews.Theorems
import DimProofs.Serving.Theorems
import DimProofs.Writes.Theorems
import DimProofs.Candidate.Theorems
import DimProofs.Execution.Qemu
import DimProofs.Ordinary.Replays
import DimProofs.RootCi.Intake
import DimProofs.RootCi.Transactions
import DimProofs.Controller.ProcessLockTheorems
import DimProofs.ExternalUrls.Prefixes
import DimProofs.Controller.ServiceLockTheorems
import DimProofs.Controller.Transitions
import DimProofs.NativeGit.Decisions
import DimProofs.NativeGit.ReconciliationLoop
import DimProofs.NativeGit.ReviewGit
import DimProofs.Ordinary.Preimages
import DimProofs.Terminal.DuplicateKeys
