import ViewSync.Main
import ViewSync.Proofs.Broadcasts
import ViewSync.Proofs.Conclusion
import ViewSync.Proofs.Convergence
import ViewSync.Proofs.Cursor
import ViewSync.Proofs.DoomedReplicas
import ViewSync.Proofs.Draining
import ViewSync.Proofs.Justification
import ViewSync.Proofs.LiveLeader
import ViewSync.Proofs.Majorities
import ViewSync.Proofs.Punctuality
import ViewSync.Proofs.Reception
import ViewSync.Proofs.Redelivery
import ViewSync.Proofs.Role
import ViewSync.Proofs.Segmentation
import ViewSync.Proofs.Standstill
import ViewSync.Proofs.Succession
import ViewSync.Proofs.ThreeCrashes
import ViewSync.Proofs.Solitude
import ViewSync.Proofs.Durations
import ViewSync.Proofs.Cadence
import ViewSync.Proofs.Refusal
import ViewSync.Proofs.Postponement
import ViewSync.Proofs.Interruption
import ViewSync.Proofs.Isolation
import ViewSync.Proofs.Waking
import ViewSync.Proofs.Gathering
import ViewSync.Proofs.Listing
import ViewSync.Proofs.Arrangement
import ViewSync.Proofs.Overriding
import ViewSync.Proofs.Denotation
import ViewSync.Proofs.FaceValue
