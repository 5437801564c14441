import ViewSync.Certificate
import ViewSync.Timer

/-!
The state machine of one replica. A replica moves from view to view: it proposes a view when the
progress timer fires, joins a view that another replica proposes, and installs a view when it
holds a quorum for it or receives proof that a quorum exists.

Every transition is a function from the state before to a `Step`: the state after, what the
replica did in view of others, in order, and how the transition ended. A transition that the
watcher of quorums halts ends in the middle; its `Step` holds the state reached by then.
-/

namespace ViewSync

/-- What a replica does in view of others. -/
inductive Event
  /-- A message to every replica, the sender included. -/
  | broadcast (message : Message)
  /-- View changes from a quorum are in hand; installation follows. -/
  | quorumCollected (view : Int)
  | viewInstalled (view leader : Int)
deriving DecidableEq, Repr

inductive Verdict
  | accepted
  /-- The view is not ahead of the installed one, or no view is left to propose. -/
  | staleView
  | invalidCertificate
  | unknownSender
  | notLeader
deriving DecidableEq, Repr

/-- Verdicts are reported as zero or a negative number. -/
def Verdict.code : Verdict → Int
  | .accepted => 0
  | .staleView => -1
  | .invalidCertificate => -2
  | .unknownSender => -3
  | .notLeader => -4

inductive Outcome
  | settled (verdict : Verdict)
  /-- The watcher halted the replica with a quorum for `view` in hand. -/
  | halted (view : Int)
deriving DecidableEq, Repr

structure Engine where
  replicas : Int
  self : Int
  seated : 0 ≤ self ∧ self < replicas
  timers : TimerPair
  view : Int := 0
  /-- The highest view that this replica has proposed, joined or installed. -/
  attempted : Int := 0
  /-- What justifies the installed view. -/
  installed : Certificate := .blank 0
  /-- The certificates being gathered, by candidate view. -/
  pending : Table Certificate := ∅
deriving DecidableEq

structure Step where
  engine : Engine
  events : List Event := []
  outcome : Outcome := .settled .accepted
deriving DecidableEq

namespace Engine

def seat? (replicas self : Int) (timers : TimerPair) : Option Engine :=
  if seated : 0 ≤ self ∧ self < replicas then
    some { replicas, self, seated, timers }
  else
    none

def ofPosition {replicas : Nat} (position : Fin replicas) (timers : TimerPair) : Engine :=
  { replicas
    self := position.val
    seated := ⟨Int.natCast_nonneg _, Int.ofNat_lt.2 position.isLt⟩
    timers }

def notSeatedMessage (replicas self : Int) : Bytes :=
  Bytes.ofString "replica " ++ Decimal.write self ++
    Bytes.ofString " is not in a roster of " ++ Decimal.write replicas

def fresh (engine : Engine) : Engine :=
  { replicas := engine.replicas
    self := engine.self
    seated := engine.seated
    timers := engine.timers.fresh }

def leader (engine : Engine) : Int :=
  leaderOf engine.view engine.replicas

def isLeader (engine : Engine) : Bool :=
  engine.leader = engine.self

/-- The first view needs no certificate, so its leader has nothing to prove. -/
def start (engine : Engine) (now : Int) : Engine :=
  { engine with timers := engine.timers.disableProof.resetProgress now }

/-- The certificate being gathered for a view, blank if there is none. -/
def candidacy (engine : Engine) (view : Int) : Certificate :=
  engine.pending[view]?.getD (.blank view)

def gather (engine : Engine) (view : Int) (attestation : Attestation) : Engine :=
  { engine with
    pending := engine.pending.insert view ((engine.candidacy view).add attestation) }

/-- Adds this replica's own attestation for a view. The view change is broadcast besides. -/
def propose (engine : Engine) (view : Int) : Engine :=
  { engine.gather view ⟨engine.self, view⟩ with attempted := max engine.attempted view }

/-- Moves to a view that a certificate justifies. Gathering for this view and all before it is
over. A replica that leads the view announces it and goes on announcing it. -/
def install (engine : Engine) (now view : Int) (certificate : Certificate) :
    Engine × List Event :=
  let moved :=
    { engine with
      view
      attempted := max engine.attempted view
      installed := certificate
      pending := engine.pending.dropThrough view
      timers := engine.timers.resetProgress now }
  if moved.isLeader then
    ({ moved with timers := moved.timers.resetProof now },
      [.broadcast (.viewProof view certificate.attestations), .viewInstalled view moved.leader])
  else
    ({ moved with timers := moved.timers.disableProof }, [.viewInstalled view moved.leader])

/-- Installs `view` if the certificate being gathered for it is valid by now. The watcher is told
first, and may halt the replica with the certificate still pending. -/
def settle (engine : Engine) (halts : Int → Bool) (now view : Int) : Step :=
  match engine.pending[view]? with
  | none => { engine }
  | some certificate =>
      if certificate.isValid engine.replicas then
        if halts view then
          { engine, events := [.quorumCollected view], outcome := .halted view }
        else
          let (engine, events) := engine.install now view certificate
          { engine, events := .quorumCollected view :: events }
      else
        { engine }

/-- The progress timer has fired: the leader is presumed dead, and the next view is proposed. -/
def progressTimeout (engine : Engine) (halts : Int → Bool) (now : Int) : Step :=
  if engine.view = maxView then
    { engine := { engine with timers := engine.timers.resetProgress now }
      outcome := .settled .staleView }
  else
    let next := engine.view + 1
    let proposed := engine.propose next
    let step :=
      { proposed with timers := proposed.timers.resetProgress now }.settle halts now next
    { step with events := .broadcast (.viewChange next) :: step.events }

/-- The proof timer has fired: a leader announces its view again, and anyone else stops. -/
def proofTimeout (engine : Engine) (now : Int) : Step :=
  if engine.isLeader && engine.installed.isValid engine.replicas then
    { engine := { engine with timers := engine.timers.resetProof now }
      events := [.broadcast (.viewProof engine.view engine.installed.attestations)] }
  else
    { engine := { engine with timers := engine.timers.disableProof }
      outcome := .settled .notLeader }

def knows (engine : Engine) (sender : Int) : Bool :=
  0 ≤ sender && sender < engine.replicas

/-- A view change has arrived. It counts once for each sender, and a replica that has not attempted
the view yet joins it. -/
def receiveViewChange (engine : Engine) (halts : Int → Bool) (now sender view : Int) : Step :=
  if !engine.knows sender then
    { engine, outcome := .settled .unknownSender }
  else if view ≤ engine.view then
    { engine, outcome := .settled .staleView }
  else if !(engine.candidacy view).learnsFrom ⟨sender, view⟩ then
    { engine }
  else
    let gathered := engine.gather view ⟨sender, view⟩
    if engine.attempted < view then
      let step := (gathered.propose view).settle halts now view
      { step with events := .broadcast (.viewChange view) :: step.events }
    else
      gathered.settle halts now view

/-- The proof of a view has arrived. It installs a later view, and for the installed view it is a
sign that the leader is alive. -/
def receiveViewProof (engine : Engine) (now sender view : Int)
    (attestations : List Attestation) : Step :=
  if !engine.knows sender then
    { engine, outcome := .settled .unknownSender }
  else if !Attestation.quorumFor view attestations engine.replicas then
    { engine, outcome := .settled .invalidCertificate }
  else if view < engine.view then
    { engine, outcome := .settled .staleView }
  else
    let (moved, events) :=
      if engine.view < view then engine.install now view (.ofList view attestations)
      else (engine, [])
    { engine := { moved with timers := moved.timers.resetProgress now }, events }

def receive (engine : Engine) (halts : Int → Bool) (now : Int) (envelope : Envelope) : Step :=
  match envelope.message with
  | .viewChange view => engine.receiveViewChange halts now envelope.sender view
  | .viewProof view attestations =>
      engine.receiveViewProof now envelope.sender view attestations

/-- What came of asking both timers. A timer that did not fire has no outcome. -/
structure Firing where
  engine : Engine
  events : List Event := []
  progress : Option Outcome := none
  proof : Option Outcome := none
deriving DecidableEq

def fireProgress (engine : Engine) (halts : Int → Bool) (now : Int) : Firing :=
  let (fired, timers) := engine.timers.consumeProgress now
  let asked := { engine with timers }
  if fired then
    let step := asked.progressTimeout halts now
    { engine := step.engine, events := step.events, progress := some step.outcome }
  else
    { engine := asked }

def fireProof (engine : Engine) (periodic : Bool) (now : Int) : Firing :=
  let (fired, timers) := engine.timers.consumeProof now
  let asked := { engine with timers }
  if fired && periodic then
    let step := asked.proofTimeout now
    { engine := step.engine, events := step.events, proof := some step.outcome }
  else
    { engine := asked }

/-- Asks the progress timer and then, unless the replica was halted, the proof timer. -/
def fireDue (engine : Engine) (halts : Int → Bool) (periodic : Bool) (now : Int) : Firing :=
  let first := engine.fireProgress halts now
  match first.progress with
  | some (.halted _) => first
  | _ =>
      let second := first.engine.fireProof periodic now
      { second with events := first.events ++ second.events, progress := first.progress }

end Engine

end ViewSync
