import Mathlib.Data.PNat.Notation
import Rdma4py.GpuNetIO.QueueMemory
import Rdma4py.Lib.Machine

/-!
# GPUNetIO: exporting and closing a QP

`DeviceQP.export` and `DeviceQP.close` over the QPs and CQs of a process. What the calls of mlx5dv, CUDA and DOCA return
is part of an event; a call that reports success gives what it is documented to give. The destruction of QPs and CQs, on
request or when their last reference goes, is there too. A `DeviceQP` is never dropped while it is open.
-/

namespace Rdma4py.GpuNetIO

/-! ## The objects -/

/-- What is fixed when a QP is created: its CQs, and whether it is an RC QP, has an SRQ and belongs to an RDMA-CM
endpoint. -/
structure QPAttrs where
  sendCq : Nat
  recvCq : Nat
  rc : Bool
  srq : Bool
  cm : Bool
  deriving DecidableEq, Repr

/-- A `QP`. -/
structure QP extends QPAttrs where
  isOpen : Bool
  externalDatapath : Bool
  externalUsers : Int
  deriving DecidableEq, Repr

/-- A `CQ`. -/
structure CQ where
  isOpen : Bool
  externalDatapath : Bool
  externalUsers : Int
  deriving DecidableEq, Repr

/-- A `DeviceQP`. The last two fields are not the source's: they keep what it was exported from. -/
structure DeviceQP where
  device : Option ℕ+
  qp : Option Nat
  mappings : Option (List Nat)
  source : Nat
  info : BridgeInfo
  deriving DecidableEq, Repr

/-- `closed`: whether the device pointer is null. -/
def DeviceQP.closed (d : DeviceQP) : Bool := d.device.isNone

/-- The process. `handles` has every `DeviceQP` that was exported. Two fields are not the source's: `releases` lists the
handles whose counts were released, and `leaked` the pages that the rollback of a failed export could not give back. -/
structure World where
  memory : HostMemory
  qps : Nat → QP
  cqs : Nat → CQ
  handles : List DeviceQP
  collected : Nat → Bool
  releases : List Nat
  leaked : List Nat

/-- Nothing has been exported from the QPs and CQs. -/
def World.initial (attrs : Nat → QPAttrs) : World where
  memory := .empty
  qps q := { attrs q with isOpen := true, externalDatapath := false, externalUsers := 0 }
  cqs _ := ⟨true, false, 0⟩
  handles := []
  collected _ := false
  releases := []
  leaked := []

/-- The QP sends or receives through the CQ. -/
def World.Uses (w : World) (q cq : Nat) : Prop := (w.qps q).sendCq = cq ∨ (w.qps q).recvCq = cq

instance (w : World) (q cq : Nat) : Decidable (w.Uses q cq) := inferInstanceAs (Decidable (_ ∨ _))

namespace World

/-- Counts `n` more external users of the QP and of each of its CQs. -/
def addUsers (q : Nat) (n : Int) (w : World) : World :=
  { w with
    qps := Function.update w.qps q { w.qps q with externalUsers := (w.qps q).externalUsers + n }
    cqs := fun cq =>
      if w.Uses q cq then { w.cqs cq with externalUsers := (w.cqs cq).externalUsers + n } else w.cqs cq }

/-- Hands the data path of the QP and its CQs over for good. -/
def transferOwnership (q : Nat) (w : World) : World :=
  { w with
    qps := Function.update w.qps q { w.qps q with externalDatapath := true }
    cqs := fun cq => if w.Uses q cq then { w.cqs cq with externalDatapath := true } else w.cqs cq }

/-- `QP._mlx5dv_bridge_info`; `native` is what mlx5dv says. -/
def bridgeInfo (q : Nat) (native : Except Exn BridgeInfo) (w : World) : World × Except Exn BridgeInfo :=
  let qp := w.qps q
  if qp.isOpen = false then (w, .error (.verbsError "queue pair is closed" "EBADF"))
  else if qp.externalDatapath then
    (w, .error (.verbsError "mlx5dv_init_obj" "queue pair already has an external data path"))
  else if qp.rc = false then (w, .error (.valueError "the GPUNetIO bridge currently requires an RC QP"))
  else if qp.srq then (w, .error (.valueError "the GPUNetIO bridge does not support SRQ-backed QPs"))
  else if (w.cqs qp.sendCq).externalDatapath ∨ (w.cqs qp.recvCq).externalDatapath then
    (w, .error (.verbsError "mlx5dv_init_obj" "a queue-pair CQ already has an external data path"))
  else
    match native with
    | .error e => (w, .error e)
    | .ok info =>
        if info.sqWqeNum > 0xFFFF ∨ info.rqWqeNum > 0xFFFF then
          (w, .error (.valueError "GPUNetIO supports at most 65535 WQEs per queue"))
        else if info.sqWqeAddr = 0 ∨ info.rqWqeAddr = 0 ∨ info.sqDbrec = 0 ∨ info.rqDbrec = 0 ∨ info.sqDb = 0 ∨
            info.sqCqeAddr = 0 ∨ info.sqCqDbrec = 0 ∨ info.rqCqeAddr = 0 ∨ info.rqCqDbrec = 0 then
          (w, .error (.verbsError "mlx5dv_init_obj"
            "mlx5 did not expose all queue mappings required by GPUNetIO"))
        else (w.transferOwnership q, .ok info)

/-- `QP._acquire_external_datapath`. -/
def acquireExternalDatapath (q : Nat) (w : World) : Except Exn World :=
  if (w.qps q).isOpen = false then .error (.verbsError "queue pair is closed" "EBADF")
  else if (w.qps q).externalDatapath = false then
    .error (.verbsError "GPUNetIO export" "QP is not externally owned")
  else .ok (w.addUsers q 1)

/-- `QP._release_external_datapath`. -/
def releaseExternalDatapath (q : Nat) (w : World) : Except Exn World :=
  if (w.qps q).externalUsers ≤ 0 then .error (.runtimeError "external GPU data path is not active")
  else .ok (w.addUsers q (-1))

/-! ## Export -/

/-- What the calls outside the module return during one export. The status of a DOCA call comes with its result. -/
structure ExportCalls where
  library : Option Exn
  gpuBusId : Except Exn String
  currentBusId : Except Exn String
  native : Except Exn BridgeInfo
  freshCqs : Bool
  cuda : CudaCalls
  gpuCreate : Int
  bridgeExportQp : Int
  qpDev : Int × ℕ+
  cpuProxyEnabled : Int × Bool

/-- `_check`. -/
def check (function : String) (status : Int) : Except Exn Unit :=
  if status ≠ 0 then .error (.gpunetioError function status) else .ok ()

/-- The keys of `_HANDLERS`. -/
def handlers : List String := ["auto", "cpu", "gpu"]

/-- What `export` checks before it touches the QP. -/
def exportChecks (nicHandler : String) (calls : ExportCalls) : Except Exn Unit :=
  if nicHandler ∉ handlers then .error (.valueError "nic_handler must be one of auto, cpu, gpu")
  else
    match calls.library with
    | some e => .error e
    | none => do
        let gpuBusId ← calls.gpuBusId
        let currentBusId ← calls.currentBusId
        if gpuBusId ≠ currentBusId then
          .error (.runtimeError s!"GPU {gpuBusId} is not the current CUDA context ({currentBusId})")
        else .ok ()

/-- `_initialize_cqs`; it only reads and writes the memory of the CQs. -/
def initializeCqs (fresh : Bool) : Except Exn Unit :=
  if fresh then .ok () else .error (.valueError "GPUNetIO export requires fresh CQs with no completions")

/-- The calls of DOCA, which give the device pointer. -/
def docaExport (nicHandler : String) (calls : ExportCalls) : Except Exn ℕ+ := do
  check "doca_gpu_create" calls.gpuCreate
  check "doca_gpu_verbs_bridge_export_qp" calls.bridgeExportQp
  check "doca_gpu_verbs_get_qp_dev" calls.qpDev.1
  check "doca_gpu_verbs_cpu_proxy_enabled" calls.cpuProxyEnabled.1
  if nicHandler = "gpu" ∧ calls.cpuProxyEnabled.2 = true then
    .error (.runtimeError "DOCA did not provide the requested direct GPU doorbell")
  else .ok calls.qpDev.2

/-- The `try` block of `export`. -/
def exportBody (q : Nat) (nicHandler : String) (calls : ExportCalls) (w : World) : Except Exn (ℕ+ × World) := do
  let device ← docaExport nicHandler calls
  let w ← w.acquireExternalDatapath q
  .ok (device, w)

/-- `DeviceQP.export`. The new handle is the last one of the list. -/
def exportQP (pageSize q : Nat) (nicHandler : String) (calls : ExportCalls) (w : World) : World × Except Exn Nat :=
  match exportChecks nicHandler calls with
  | .error e => (w, .error e)
  | .ok () =>
  match w.bridgeInfo q calls.native with
  | (w, .error e) => (w, .error e)
  | (w, .ok info) =>
  match do validateQueueLayout info; initializeCqs calls.freshCqs with
  | .error e => (w, .error e)
  | .ok () =>
  match registerQueueMemory pageSize calls.cuda info w.memory with
  | (m, .failed remaining e) => ({ w with memory := m, leaked := remaining ++ w.leaked }, .error e)
  | (m, .mappings pages) =>
  match exportBody q nicHandler calls { w with memory := m } with
  | .error e =>
      -- the results of unexport and destroy are not looked at, and an exception of `mappings.close` is dropped
      match closeMappings calls.cuda.unregister pages m with
      | (m, remaining, _) => ({ w with memory := m, leaked := remaining ++ w.leaked }, .error e)
  | .ok (device, w) =>
      ({ w with handles := w.handles ++ [⟨some device, some q, some pages, q, info⟩] }, .ok w.handles.length)

/-! ## Close -/

/-- What the calls outside the module return during one `close`. -/
structure CloseCalls where
  unregister : Nat → Int
  unexportQp : Int
  gpuDestroy : Int

/-- `DeviceQP.close` of the handle with index `i`. -/
def closeDevice (i : Nat) (calls : CloseCalls) (w : World) : World × Except Exn Unit :=
  match w.handles[i]? with
  | none => (w, .ok ())
  | some d =>
      if d.closed then (w, .ok ())
      else
        match d.mappings with
        | none => (w, .error .attributeError)
        | some pages =>
        match closeMappings calls.unregister pages w.memory with
        | (m, remaining, .error e) =>
            ({ w with memory := m, handles := w.handles.set i { d with mappings := some remaining } }, .error e)
        | (m, remaining, .ok ()) =>
            let w := { w with memory := m, handles := w.handles.set i { d with mappings := some remaining } }
            if calls.unexportQp ≠ 0 then
              (w, .error (.gpunetioError "doca_gpu_verbs_unexport_qp" calls.unexportQp))
            else
              match d.qp with
              | none => (w, .error .attributeError)
              | some q =>
              match w.releaseExternalDatapath q with
              | .error e => (w, .error e)
              | .ok w =>
                  ({ w with
                     handles := w.handles.set i { d with device := none, qp := none, mappings := none }
                     releases := i :: w.releases }, check "doca_gpu_destroy" calls.gpuDestroy)

/-- `QP.close`; `status` is what `ibv_destroy_qp` returns. -/
def closeQP (q : Nat) (status : Int) (w : World) : World × Except Exn Unit :=
  let qp := w.qps q
  if qp.isOpen = false then (w, .ok ())
  else if qp.externalUsers ≠ 0 then
    (w, .error (.verbsError "ibv_destroy_qp" "close the active external GPU data path first"))
  else if qp.cm = false ∧ status ≠ 0 then (w, .error (.external "ibv_destroy_qp"))
  else ({ w with qps := Function.update w.qps q { qp with isOpen := false } }, .ok ())

/-- `CQ.close`; `status` is what `ibv_destroy_cq` returns. -/
def closeCQ (cq : Nat) (status : Int) (w : World) : World × Except Exn Unit :=
  if (w.cqs cq).isOpen = false then (w, .ok ())
  else if (w.cqs cq).externalUsers ≠ 0 then
    (w, .error (.verbsError "ibv_destroy_cq" "close the active external GPU data path first"))
  else if status ≠ 0 then (w, .error (.external "ibv_destroy_cq"))
  else ({ w with cqs := Function.update w.cqs cq { w.cqs cq with isOpen := false } }, .ok ())

/-- `QP.__dealloc__`. -/
def collectQP (q : Nat) (w : World) : World :=
  { w with
    qps := Function.update w.qps q { w.qps q with isOpen := false }
    collected := Function.update w.collected q true }

/-- `CQ.__dealloc__`. -/
def collectCQ (cq : Nat) (w : World) : World :=
  { w with cqs := Function.update w.cqs cq { w.cqs cq with isOpen := false } }

end World

/-! ## The machine -/

/-- A call, or the end of an object that nothing refers to any more. -/
inductive Event
  | export (q : Nat) (nicHandler : String) (calls : World.ExportCalls)
  | close (i : Nat) (calls : World.CloseCalls)
  | closeQP (q : Nat) (status : Int)
  | closeCQ (cq : Nat) (status : Int)
  | collectQP (q : Nat)
  | collectCQ (cq : Nat)

/-- `ibv_destroy_cq` refuses a CQ that a QP is attached to. A QP is collected when no `DeviceQP` refers to it, a CQ when the
QPs that refer to it have been. The caller keeps an open `DeviceQP` until it is closed: none is ever dropped, since the
class has no finalizer that would give anything back. -/
def Enabled (w : World) : Event → Prop
  | .export .. | .close .. | .closeQP .. => True
  | .closeCQ cq status => status = 0 → ∀ q, w.Uses q cq → (w.qps q).isOpen = false
  | .collectQP q => ∀ d ∈ w.handles, d.qp ≠ some q
  | .collectCQ cq => ∀ q, w.Uses q cq → w.collected q = true

def next (pageSize : Nat) (w : World) : Event → World
  | .export q nicHandler calls => (w.exportQP pageSize q nicHandler calls).1
  | .close i calls => (w.closeDevice i calls).1
  | .closeQP q status => (w.closeQP q status).1
  | .closeCQ cq status => (w.closeCQ cq status).1
  | .collectQP q => w.collectQP q
  | .collectCQ cq => w.collectCQ cq

def machine (pageSize : Nat) : Lib.Machine World Event := ⟨Enabled, next pageSize⟩

end Rdma4py.GpuNetIO
