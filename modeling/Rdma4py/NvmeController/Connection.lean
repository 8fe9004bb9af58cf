import Rdma4py.Lib.Program
import Rdma4py.NvmeController.Commands
import Rdma4py.NvmeQueue.Shutdown

/-!
# Connecting to a controller

`Controller.__init__` opens the admin queue, brings the remote controller up with commands on it, and opens the I/O
queue; when something raises, it closes the queues that it has. What each `execute` makes of its command is a parameter.
Beside the program stands the protocol: the order in which an initiator may send these commands, and what the answers
must have said before.
-/

namespace Rdma4py.NvmeController.Connection

open Rdma4py.Lib
open NvmeQueue (Exn Owner Closing)

/-! ## Constants and registers -/

/-- `ADMIN_QUEUE_DEPTH`. -/
def adminQueueDepth : Int := 32

/-- `REG_CAP`. -/
def regCap : Int := 0x00

/-- `REG_CC`. -/
def regCc : Int := 0x14

/-- `REG_CSTS`. -/
def regCsts : Int := 0x1C

/-- `FEAT_NUMBER_OF_QUEUES`. -/
def featNumberOfQueues : Int := 0x07

/-- `cc`: the configuration that enables a controller with these capabilities. -/
def configuration (capabilities : Nat) : Nat :=
  let mpsmin := (capabilities >>> 48) &&& 0xF
  let css := (capabilities >>> 37) &&& 0xFF
  let cc := 1 ||| 6 <<< 16 ||| 4 <<< 20 ||| mpsmin <<< 7
  if css &&& 1 <<< 6 ≠ 0 then cc ||| 6 <<< 4 else cc

/-- `controller_page_size`. -/
def pageSize (capabilities : Nat) : Nat := 1 <<< (12 + ((capabilities >>> 48) &&& 0xF))

/-- `csts & CSTS_FATAL`. -/
def Fatal (csts : Nat) : Prop := csts &&& 1 <<< 1 ≠ 0

/-- `csts & CSTS_READY`. -/
def Ready (csts : Nat) : Prop := csts &&& 1 ≠ 0

/-- `auth_required`. -/
def AuthRequired (answer : Nat) : Prop := answer &&& (1 <<< 17 ||| 1 <<< 18) ≠ 0

instance : DecidablePred Fatal := fun csts => inferInstanceAs (Decidable (csts &&& 1 <<< 1 ≠ 0))

instance : DecidablePred Ready := fun csts => inferInstanceAs (Decidable (csts &&& 1 ≠ 0))

instance : DecidablePred AuthRequired :=
  fun answer => inferInstanceAs (Decidable (answer &&& (1 <<< 17 ||| 1 <<< 18) ≠ 0))

/-- What is raised. -/
inductive Raised
  | exn (e : Exn)
  | notImplemented (text : String)
  deriving DecidableEq, Repr

/-- `ControllerInfo`, as far as the connection looks at it. -/
structure ControllerInfo where
  mdts : Nat
  controllerId : Nat
  maxCommands : Nat
  namespaceCount : Nat
  sgls : Nat
  icdoff : Nat
  deriving DecidableEq, Repr

/-- `ControllerInfo.from_bytes`. -/
def ControllerInfo.fromBytes (data : List UInt8) : Except Raised ControllerInfo :=
  if data.length < 4096 then .error (.exn (.valueError "Identify Controller data must be 4096 bytes"))
  else
    .ok
      { mdts := leNat (slice data 77 1)
        controllerId := leNat (slice data 78 2)
        maxCommands := leNat (slice data 514 2)
        namespaceCount := leNat (slice data 516 4)
        sgls := leNat (slice data 536 4)
        icdoff := leNat (slice data 1800 2) }

/-- `depth`. -/
def ioDepth (requested : Int) (capabilities : Nat) (info : ControllerInfo) : Int :=
  let queueLimit : Int := ((capabilities &&& 0xFFFF) + 1 : Nat)
  let queueLimit := if info.maxCommands ≠ 0 then min queueLimit info.maxCommands else queueLimit
  min (min requested queueLimit) maxQueueDepth

/-- `max_transfer_bytes`. -/
def transferLimit (capabilities : Nat) (info : ControllerInfo) : Int :=
  if info.mdts ≠ 0 then min maxKeyedSglLength (pageSize capabilities <<< info.mdts : Nat) else maxKeyedSglLength

/-! ## The state -/

/-- The queue that a command goes to. -/
inductive QueueName
  | admin
  | io
  deriving DecidableEq, Repr

/-- `qid`. -/
def QueueName.qid : QueueName → Int
  | .admin => 0
  | .io => 1

/-- A call of `execute`: its command, and the result of the completion if it returned. -/
structure Issued where
  queue : QueueName
  command : List UInt8
  answer : Option Nat
  deriving DecidableEq, Repr

/-- `Controller`, with the queues that it gave up and a record of its buffers and commands. -/
structure Controller where
  admin : Option Owner := none
  io : Option Owner := none
  dropped : List Owner := []
  controllerId : Option Nat := none
  capabilities : Option Nat := none
  info : Option ControllerInfo := none
  maxTransferBytes : Option Int := none
  /-- The number of buffers so far, and those that are open. -/
  buffers : Nat := 0
  openBuffers : List Nat := []
  issued : List Issued := []

/-- The arguments. -/
structure Settings where
  hostId : Vector UInt8 16
  subsystemNqn : String
  hostNqn : String
  queueDepth : Int
  keepAliveMs : Int

/-- What the calls outside of the class do: what raises in the construction and the shutdown of a queue, the memory of
each buffer, what its deregistration raises, how the command with each number ends, what Identify leaves in its buffer,
and whether the deadline has passed when so many commands were issued. -/
structure Surroundings where
  raises : QueueName → NvmeQueue.Stage → Option Exn
  cleanup : QueueName → Closing
  closing : QueueName → Closing
  register : Nat → Except Exn (Int × Int)
  deregister : Nat → Option Exn
  execute : Nat → Except Exn NvmeQueue.Completion
  identified : List UInt8
  expired : Nat → Bool

abbrev Method := Program Controller Raised

/-! ## The statements -/

section Methods

variable (s : Settings) (env : Surroundings)

/-- What a function of the other modules returns or raises. -/
def pass {α : Type} (x : Except Exn α) : Method α := Program.eval (x.mapError Raised.exn)

/-- `execute` on a queue, and `result` of the completion. -/
def execute (queue : QueueName) (command : List UInt8) : Method Nat := fun c =>
  match env.execute c.issued.length with
  | .ok completion =>
      (.returned completion.result, { c with issued := c.issued ++ [⟨queue, command, some completion.result⟩] })
  | .error e => (.raised (.exn e), { c with issued := c.issued ++ [⟨queue, command, none⟩] })

/-- `HostBuffer(pd, length)`: its number and its memory. -/
def hostBuffer (length : Int) : Method (Nat × Region) := fun c =>
  match env.register c.buffers with
  | .ok (addr, rkey) =>
      (.returned (c.buffers, ⟨addr, length, rkey⟩),
        { c with buffers := c.buffers + 1, openBuffers := c.openBuffers ++ [c.buffers] })
  | .error e => (.raised (.exn e), c)

/-- `HostBuffer.close`: a region whose deregistration raises stays registered. -/
def closeHostBuffer (i : Nat) : Method Unit := fun c =>
  match env.deregister i with
  | none => (.returned (), { c with openBuffers := c.openBuffers.erase i })
  | some e => (.raised (.exn e), c)

/-- `with HostBuffer(pd, length) as buffer`. -/
def withBuffer {α : Type} (length : Int) (body : Region → Method α) : Method α := do
  let buffer ← hostBuffer env length
  Program.ensure (body buffer.2) (closeHostBuffer env buffer.1)

/-- The attribute that holds a queue. -/
def Controller.assign (c : Controller) (w : Owner) : QueueName → Controller
  | .admin => { c with admin := some w }
  | .io => { c with io := some w }

/-- `RDMAQueue(...)`, and the assignment of what it returns. -/
def openQueue (queue : QueueName) (depth controllerId : Int) : Method Unit := do
  let _ ← pass (rdmaCmRequest queue.qid depth controllerId)
  fun c =>
    match Owner.construct depth.toNat (fun _ => 0) (fun _ => 0) (env.raises queue) (env.cleanup queue) with
    | (w, none) => (.returned (), c.assign w queue)
    | (w, some e) => (.raised (.exn e), { c with dropped := c.dropped ++ [w] })

/-- The Connect command of a queue. -/
def connectQueue (queue : QueueName) (depth controllerId keepAliveMs : Int) : Method Nat :=
  withBuffer env 1024 fun data => do
    let _ ← pass (connectData s.hostId s.subsystemNqn s.hostNqn controllerId)
    let command ← pass (fabricsConnect queue.qid depth data keepAliveMs)
    execute env queue command

/-- `_property_get`. -/
def getProperty (offset size : Int) : Method Nat := do
  let command ← pass (propertyGet offset size)
  execute env .admin command

/-- `_property_set`. -/
def setProperty (offset value size : Int) : Method Unit := do
  let command ← pass (propertySet offset value size)
  let _ ← execute env .admin command
  return ()

/-- `_wait_ready`. -/
def waitReady : Nat → Method Unit
  | 0 => Program.diverge
  | fuel + 1 => do
      let csts ← getProperty env regCsts 4
      Program.refuse (Fatal csts) (.exn (.runtimeError "NVMe controller entered fatal status"))
      if Ready csts then return ()
      else
        let n ← Program.read fun c => c.issued.length
        Program.refuse (env.expired n = true) (.exn (.timeoutError "NVMe controller did not become ready"))
        waitReady fuel

/-- `_connect` up to the answer of the first Connect: `controller_id`. -/
def connectAdmin : Method Nat := do
  openQueue env .admin adminQueueDepth 0
  let answer ← connectQueue s env .admin adminQueueDepth 0xFFFF s.keepAliveMs
  Program.update fun c => { c with controllerId := some (answer &&& 0xFFFF) }
  Program.refuse (AuthRequired answer) (.notImplemented "NVMe DH-HMAC-CHAP authentication is required")
  return answer &&& 0xFFFF

/-- `_connect` up to the call of `_wait_ready`, with it: `capabilities`. -/
def enable (fuel : Nat) : Method Nat := do
  let capabilities ← getProperty env regCap 8
  Program.update fun c => { c with capabilities := some capabilities }
  setProperty env regCc (configuration capabilities) 4
  waitReady env fuel
  return capabilities

/-- `_connect` from there to the checks of what Identify says: `info`. -/
def identifyController (controllerId : Nat) : Method ControllerInfo := do
  let info ← withBuffer env 4096 fun buffer => do
    let command ← pass (identify buffer 0 true)
    let _ ← execute env .admin command
    let info ← Program.eval (ControllerInfo.fromBytes env.identified)
    Program.update fun c => { c with info := some info }
    return info
  Program.refuse (info.controllerId ≠ controllerId)
    (.exn (.runtimeError "Connect and Identify returned different controller IDs"))
  Program.refuse (info.sgls &&& 1 <<< 2 = 0)
    (.exn (.runtimeError "NVMe/RDMA target does not advertise keyed SGL support"))
  Program.refuse (info.icdoff ≠ 0) (.exn (.runtimeError "non-zero NVMe in-capsule data offsets are unsupported"))
  return info

/-- `_connect` from there to its end. -/
def connectIo (controllerId capabilities : Nat) (info : ControllerInfo) : Method Unit := do
  let command ← pass (setFeatures featNumberOfQueues 0)
  let granted ← execute env .admin command
  Program.refuse (min (granted &&& 0xFFFF) (granted >>> 16) + 1 < 1)
    (.exn (.runtimeError "NVMe target did not allocate an I/O queue"))
  openQueue env .io (ioDepth s.queueDepth capabilities info) controllerId
  let _ ← connectQueue s env .io (ioDepth s.queueDepth capabilities info) controllerId 0
  Program.update fun c => { c with maxTransferBytes := some (transferLimit capabilities info) }

/-- `_connect`. -/
def connect (fuel : Nat) : Method Unit := do
  Program.refuse (s.queueDepth < 2 ∨ maxQueueDepth < s.queueDepth)
    (.exn (.valueError "queue_depth must be between 2 and 256"))
  let controllerId ← connectAdmin s env
  let capabilities ← enable env fuel
  let info ← identifyController env controllerId
  connectIo s env controllerId capabilities info

/-- The `close` of one queue: the attribute keeps a queue whose `close` raised. -/
def closeQueue (queue : Option Owner) (c : Closing) : Option Owner × List Owner :=
  match queue with
  | none => (none, [])
  | some w =>
      match w.close c with
      | (w', none) => (none, [w'])
      | (w', some _) => (some w', [])

/-- `close`. What it raises is an `OSError`, which `__init__` drops. -/
def close (c : Controller) : Controller :=
  let (io, droppedIo) := closeQueue c.io (env.closing .io)
  let (admin, droppedAdmin) := closeQueue c.admin (env.closing .admin)
  { c with io := io, admin := admin, dropped := c.dropped ++ droppedIo ++ droppedAdmin }

/-- `__init__`, from its checks on; the state when it ended. -/
def init (fuel : Nat) : Ending Raised Unit × Controller :=
  (do
    Program.refuse (s.keepAliveMs ≠ 0)
      (.notImplemented "non-zero keep-alive requires a background command worker")
    Program.onError (connect s env fuel) (close env) : Method Unit) {}

end Methods

/-! ## The protocol -/

/-- Where the initiator stands, with what it was told. -/
inductive Phase
  | new
  | connected (answer : Nat)
  | capable (answer capabilities : Nat)
  | polling (answer capabilities csts : Nat)
  | enabled (answer capabilities : Nat)
  | identified (answer capabilities : Nat)
  | granted (answer capabilities : Nat) (info : ControllerInfo)
  | established (answer capabilities : Nat) (info : ControllerInfo)
  | unanswered

/-- A command that may come next, and where its answer leads; `data` is what Identify says. -/
inductive Phase.Sends (s : Settings) (data : List UInt8) : Phase → QueueName → List UInt8 → (Nat → Phase) → Prop
  | connect {buffer command} : fabricsConnect 0 adminQueueDepth buffer s.keepAliveMs = .ok command →
      Sends s data .new .admin command .connected
  | capabilities {answer command} : ¬ AuthRequired answer → propertyGet regCap 8 = .ok command →
      Sends s data (.connected answer) .admin command (.capable answer)
  | enable {answer capabilities command} : propertySet regCc (configuration capabilities) 4 = .ok command →
      Sends s data (.capable answer capabilities) .admin command fun _ => .enabled answer capabilities
  | status {answer capabilities command} : propertyGet regCsts 4 = .ok command →
      Sends s data (.enabled answer capabilities) .admin command (.polling answer capabilities)
  | poll {answer capabilities csts command} : ¬ Fatal csts → ¬ Ready csts → propertyGet regCsts 4 = .ok command →
      Sends s data (.polling answer capabilities csts) .admin command (.polling answer capabilities)
  | identify {answer capabilities csts buffer command} : ¬ Fatal csts → Ready csts →
      NvmeController.identify buffer 0 true = .ok command →
      Sends s data (.polling answer capabilities csts) .admin command fun _ => .identified answer capabilities
  | features {answer capabilities info command} : ControllerInfo.fromBytes data = .ok info →
      info.controllerId = answer &&& 0xFFFF → info.sgls &&& 1 <<< 2 ≠ 0 → info.icdoff = 0 →
      setFeatures featNumberOfQueues 0 = .ok command →
      Sends s data (.identified answer capabilities) .admin command fun _ => .granted answer capabilities info
  | connectIo {answer capabilities info buffer command} :
      fabricsConnect 1 (ioDepth s.queueDepth capabilities info) buffer 0 = .ok command →
      Sends s data (.granted answer capabilities info) .io command fun _ => .established answer capabilities info

/-- The commands lead from the start to the phase; the last one may be without an answer. -/
inductive Leads (s : Settings) (data : List UInt8) : List Issued → Phase → Prop
  | start : Leads s data [] .new
  | answered {issued p queue command next} (answer : Nat) : Leads s data issued p → p.Sends s data queue command next →
      Leads s data (issued ++ [⟨queue, command, some answer⟩]) (next answer)
  | unanswered {issued p queue command next} : Leads s data issued p → p.Sends s data queue command next →
      Leads s data (issued ++ [⟨queue, command, none⟩]) .unanswered

/-- The status of the controller was read, and this was the answer. -/
def StatusRead (csts : Nat) (x : Issued) : Prop :=
  x.queue = .admin ∧ propertyGet regCsts 4 = .ok x.command ∧ x.answer = some csts

/-- The controller was seen ready. -/
def SeenReady (issued : List Issued) : Prop := ∃ x ∈ issued, ∃ csts, StatusRead csts x ∧ Ready csts ∧ ¬ Fatal csts

/-! ## What the constructor leaves -/

/-- The queues that were ever opened. -/
def Controller.queues (c : Controller) : List Owner := c.admin.toList ++ c.io.toList ++ c.dropped

/-- Nothing was closed twice, and what the queue still holds could not be closed. -/
structure GivenBack (w : Owner) : Prop where
  sound : w.resources.Sound
  failed : ∀ r, w.resources.held r = true → ∃ e, ⟨r, some e⟩ ∈ w.resources.attempts

/-- The queue holds all its resources. -/
def Whole (w : Owner) : Prop := ∀ r, w.resources.held r = true

/-- A connected controller: both queues are whole, and the limits respect what it asked for and what it was told. -/
structure Connected (s : Settings) (data : List UInt8) (c : Controller) : Prop where
  admin : ∃ w, c.admin = some w ∧ Whole w ∧ w.world.queue.depth = 32
  io : ∃ w, c.io = some w ∧ Whole w ∧ 2 ≤ w.world.queue.depth ∧ (w.world.queue.depth : Int) ≤ s.queueDepth ∧
    ∀ capabilities info, c.capabilities = some capabilities → c.info = some info →
      w.world.queue.depth ≤ (capabilities &&& 0xFFFF) + 1 ∧
      (info.maxCommands ≠ 0 → w.world.queue.depth ≤ info.maxCommands)
  transfer : ∃ m, c.maxTransferBytes = some m ∧ 4096 ≤ m ∧ m ≤ maxKeyedSglLength
  phase : ∃ answer capabilities info, Leads s data c.issued (.established answer capabilities info) ∧
    c.controllerId = some (answer &&& 0xFFFF) ∧ c.capabilities = some capabilities ∧ c.info = some info

end Rdma4py.NvmeController.Connection
