import Rdma4py.Lib.Tiling

/-!
# Requests, chunks and work requests

The values that `read_scheduler.py` moves around: the exceptions, the requests of a caller, the chunks that
`_iter_chunks` cuts them into and the work requests that `_refill` builds from the chunks.
-/

namespace Rdma4py.ReadScheduler

open Rdma4py.Lib

/-- `_MAX_SGE_LENGTH`. -/
def maxSgeLength : Nat := 2 ^ 32 - 1

/-- `_MAX_WR_ID`. -/
def maxWrId : Nat := 2 ^ 64 - 1

/-! ## Exceptions -/

/-- An exception. `external` is one that the scheduler does not raise itself: it comes from a provider, a callback, the
clock or a cancelled task. -/
inductive Exn
  | valueError (text : String)
  | typeError (text : String)
  | runtimeError (text : String)
  | rdmaReadError (text : String)
  /-- An `RdmaReadError` with another exception as its `__cause__`. -/
  | wrapped (text : String) (cause : Exn)
  | rdmaReadTimeout (text : String)
  | external (isTimeout : Bool) (text : String)
  deriving DecidableEq, Repr

namespace Exn

/-- `str(error)`. -/
def text : Exn → String
  | valueError t | typeError t | runtimeError t | rdmaReadError t | wrapped t _ | rdmaReadTimeout t | external _ t => t

/-- `isinstance(error, (RdmaReadError, TimeoutError))`. -/
def isReadErrorOrTimeout : Exn → Bool
  | rdmaReadError _ | wrapped _ _ | rdmaReadTimeout _ | external true _ => true
  | valueError _ | typeError _ | runtimeError _ | external false _ => false

end Exn

/-! ## Requests -/

/-- The class of a request object: `RdmaReadRequest` or its subclass `RdmaWriteRequest`. -/
inductive RequestClass
  | read
  | write
  deriving DecidableEq, Repr

/-- A request that `__post_init__` accepted. `localMr` is the identity of the local memory object. -/
structure RdmaReadRequest where
  cls : RequestClass
  localMr : Nat
  remoteAddr : Nat
  rkey : Nat
  length : Nat
  localOffset : Nat
  remoteOffset : Nat
  remoteAddr_le : remoteAddr ≤ maxWrId
  rkey_le : rkey ≤ maxSgeLength
  length_pos : 0 < length
  range_le : remoteAddr + remoteOffset + length ≤ maxWrId + 1
  deriving DecidableEq

/-- `RdmaReadRequest.__post_init__`: the checks in the order of the source. `hasSge` is `hasattr(local_mr, "sge")`. -/
def RdmaReadRequest.postInit (cls : RequestClass) (hasSge : Bool) (localMr : Nat)
    (remoteAddr rkey length : Int) (localOffset remoteOffset : Int) : Except Exn RdmaReadRequest :=
  if hasSge = false then .error (.typeError "local_mr must expose sge(length, offset=...)")
  else if h₁ : remoteAddr < 0 ∨ remoteAddr > maxWrId then
    .error (.valueError "remote_addr must be between 0 and 2**64 - 1")
  else if h₂ : rkey < 0 ∨ rkey > maxSgeLength then .error (.valueError "rkey must be between 0 and 2**32 - 1")
  else if h₃ : length ≤ 0 then .error (.valueError "length must be positive")
  else if localOffset < 0 then .error (.valueError "local_offset must be non-negative")
  else if h₅ : remoteOffset < 0 then .error (.valueError "remote_offset must be non-negative")
  else if h₆ : remoteAddr + remoteOffset + length > maxWrId + 1 then
    .error (.valueError "remote byte range exceeds the 64-bit address space")
  else
    .ok { cls := cls, localMr := localMr, remoteAddr := remoteAddr.toNat, rkey := rkey.toNat
          length := length.toNat, localOffset := localOffset.toNat, remoteOffset := remoteOffset.toNat
          remoteAddr_le := by omega, rkey_le := by omega, length_pos := by omega, range_le := by omega }

/-! ## Chunks -/

/-- `_ReadChunk`. -/
structure ReadChunk where
  requestIndex : Nat
  request : RdmaReadRequest
  offset : Nat
  length : Nat
  deriving DecidableEq

/-- The chunks of one request: the inner loop of `_iter_chunks`. -/
def chunksOf (chunkSize : Nat) (request : RdmaReadRequest) (requestIndex : Nat) : List ReadChunk :=
  (pyRange 0 request.length chunkSize).map fun offset =>
    { requestIndex := requestIndex, request := request, offset := offset
      length := min chunkSize (request.length - offset) }

/-- `_iter_chunks`: all that the generator yields. -/
def iterChunks (chunkSize : Nat) (requests : List RdmaReadRequest) : List ReadChunk :=
  requests.zipIdx.flatMap fun ri => chunksOf chunkSize ri.1 ri.2

/-! ## Work requests -/

inductive WROpcode
  | rdmaWrite
  | rdmaRead
  deriving DecidableEq, Repr

/-- What `local_mr.sge(length, offset=offset)` describes. -/
structure SGE where
  mr : Nat
  length : Nat
  offset : Nat
  deriving DecidableEq, Repr

/-- `SendWR` as `_refill` builds it; every one is `SIGNALED`. -/
structure SendWR where
  wrId : Nat
  sge : SGE
  opcode : WROpcode
  signaled : Bool
  remoteAddr : Nat
  rkey : Nat
  deriving DecidableEq, Repr

/-- The opcode for the class of a request. -/
def RequestClass.opcode : RequestClass → WROpcode
  | write => .rdmaWrite
  | read => .rdmaRead

/-- The work request that `_refill` builds for a chunk. -/
def ReadChunk.sendWR (chunk : ReadChunk) (wrId : Nat) : SendWR where
  wrId := wrId
  sge := { mr := chunk.request.localMr, length := chunk.length, offset := chunk.request.localOffset + chunk.offset }
  opcode := chunk.request.cls.opcode
  signaled := true
  remoteAddr := chunk.request.remoteAddr + chunk.request.remoteOffset + chunk.offset
  rkey := chunk.request.rkey

/-- `_PendingRead`. -/
structure PendingRead where
  qpIndex : Nat
  chunk : ReadChunk
  deriving DecidableEq

/-! ## The chunks of a request tile it -/

/-- The `(offset, length)` pairs of a request's chunks. -/
def pieces (chunks : List ReadChunk) : List (Nat × Nat) := chunks.map fun c => (c.offset, c.length)

theorem pieces_chunksOf {chunkSize : Nat} (hc : 0 < chunkSize) (request : RdmaReadRequest) (i : Nat) :
    Tiles 0 (pieces (chunksOf chunkSize request i)) request.length := by
  rw [pieces, chunksOf, List.map_map]
  exact tiles_pyRange hc (Nat.zero_le _)

theorem chunksOf_spec {chunkSize : Nat} {request : RdmaReadRequest} {i : Nat} {c : ReadChunk}
    (h : c ∈ chunksOf chunkSize request i) :
    c.requestIndex = i ∧ c.request = request ∧ c.length ≤ chunkSize := by
  simp only [chunksOf, List.mem_map] at h
  obtain ⟨o, _, rfl⟩ := h
  exact ⟨rfl, rfl, Nat.min_le_left _ _⟩

theorem mem_iterChunks {chunkSize : Nat} {requests : List RdmaReadRequest} {c : ReadChunk} :
    c ∈ iterChunks chunkSize requests ↔
      ∃ request i, requests[i]? = some request ∧ c ∈ chunksOf chunkSize request i := by
  simp only [iterChunks, List.mem_flatMap, List.mem_zipIdx_iff_getElem?, Prod.exists]

/-- The chunks of one request among all. -/
theorem filter_iterChunks {chunkSize : Nat} {requests : List RdmaReadRequest} {i : Nat} {request : RdmaReadRequest}
    (h : requests[i]? = some request) :
    ((iterChunks chunkSize requests).filter fun c => c.requestIndex = i) = chunksOf chunkSize request i := by
  have hself : ∀ r j, j = i → ((chunksOf chunkSize r j).filter fun c => c.requestIndex = i) = chunksOf chunkSize r j :=
    fun r j hj => List.filter_eq_self.mpr fun c hc => by simp [(chunksOf_spec hc).1, hj]
  have hnone : ∀ r j, j ≠ i → ((chunksOf chunkSize r j).filter fun c => c.requestIndex = i) = [] :=
    fun r j hj => List.filter_eq_nil_iff.mpr fun c hc => by simp [(chunksOf_spec hc).1, hj]
  have hpast : ∀ (rs : List RdmaReadRequest) (n : Nat), i < n →
      ((rs.zipIdx n).flatMap fun ri => chunksOf chunkSize ri.1 ri.2).filter (fun c => c.requestIndex = i) = [] := by
    intro rs
    induction rs with
    | nil => intro n _; rfl
    | cons r rs ih =>
        intro n hn
        rw [List.zipIdx_cons, List.flatMap_cons, List.filter_append, hnone r n (by omega), ih (n + 1) (by omega)]
        rfl
  have key : ∀ (rs : List RdmaReadRequest) (n : Nat), n ≤ i → rs[i - n]? = some request →
      ((rs.zipIdx n).flatMap fun ri => chunksOf chunkSize ri.1 ri.2).filter (fun c => c.requestIndex = i) =
        chunksOf chunkSize request i := by
    intro rs
    induction rs with
    | nil => intro n _ hr; simp at hr
    | cons r rs ih =>
        intro n hn hr
        rw [List.zipIdx_cons, List.flatMap_cons, List.filter_append]
        rcases Nat.eq_or_lt_of_le hn with rfl | hlt
        · rw [Nat.sub_self, List.getElem?_cons_zero, Option.some.injEq] at hr
          rw [hself r n rfl, hpast rs (n + 1) (Nat.lt_succ_self n), List.append_nil, hr]
        · rw [show i - n = i - (n + 1) + 1 by omega, List.getElem?_cons_succ] at hr
          rw [hnone r n (by omega), List.nil_append]
          exact ih (n + 1) (by omega) hr
  exact key requests 0 (Nat.zero_le i) h

theorem sum_lengths_chunksOf {chunkSize : Nat} (hc : 0 < chunkSize) (request : RdmaReadRequest) (i : Nat) :
    ((chunksOf chunkSize request i).map ReadChunk.length).sum = request.length := by
  have := (pieces_chunksOf hc request i).sum_lengths
  simpa [pieces, Function.comp_def] using this

theorem sum_lengths_iterChunks {chunkSize : Nat} (hc : 0 < chunkSize) (requests : List RdmaReadRequest) :
    ((iterChunks chunkSize requests).map ReadChunk.length).sum = (requests.map RdmaReadRequest.length).sum := by
  have key : ∀ rs : List (RdmaReadRequest × Nat),
      ((rs.flatMap fun ri => chunksOf chunkSize ri.1 ri.2).map ReadChunk.length).sum =
        (rs.map fun ri => ri.1.length).sum := by
    intro rs
    induction rs with
    | nil => rfl
    | cons r rs ih => simp [sum_lengths_chunksOf hc, ih]
  have hfst : requests.map RdmaReadRequest.length = (requests.zipIdx.map Prod.fst).map RdmaReadRequest.length := by
    rw [List.zipIdx_map_fst]
  rw [iterChunks, key, hfst, List.map_map]
  rfl

end Rdma4py.ReadScheduler
