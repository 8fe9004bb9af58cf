import Rdma4py.NvmeController.Commands

/-!
# Transfers of a namespace

`Namespace._transfer` splits a range of blocks into commands and executes them one after the other. What it does
outside of itself is recorded in order; what each `execute` raises is a parameter.
-/

namespace Rdma4py.NvmeController

open NvmeQueue (Exn)

/-- `Namespace`, with what it reads from its controller. -/
structure Namespace where
  nsid : Int
  lbaSize : Int
  sizeLbas : Int
  maxTransferBytes : Int

/-- What a transfer does to the CUDA device and to the I/O queue. -/
inductive Action
  | synchronize
  | execute (command : List UInt8)
  | flushGpudirectWrites
  deriving DecidableEq, Repr

/-- The command of an `execute`. -/
def Action.command? : Action → Option (List UInt8)
  | .execute command => some command
  | _ => none

/-- The commands that were issued, in order. -/
def issued (actions : List Action) : List (List UInt8) := actions.filterMap Action.command?

/-- `while remaining`. `execute k` is what the `k`-th `execute` raises; without fuel there is no result. -/
def transferLoop (ns : Namespace) (opcode : Int) (buffer : Region) (maxBlocks : Int) (execute : Nat → Option Exn) :
    Nat → Nat → Int → Int → Int → Option (List Action × Except Exn Unit)
  | 0, _, _, _, _ => none
  | fuel + 1, k, remaining, offset, currentLba =>
      if remaining = 0 then some ([], .ok ())
      else
        let count := min remaining maxBlocks
        match rwCommand opcode ns.nsid currentLba count buffer ns.lbaSize offset with
        | .error e => some ([], .error e)
        | .ok command =>
            match execute k with
            | some e => some ([.execute command], .error e)
            | none =>
                (transferLoop ns opcode buffer maxBlocks execute fuel (k + 1) (remaining - count)
                  (offset + count * ns.lbaSize) (currentLba + count)).map fun x => (.execute command :: x.1, x.2)

/-- The number of blocks of a call: the default is the rest of the buffer. -/
def Namespace.blocks (ns : Namespace) (buffer : Region) (blocks : Option Int) (bufferOffset : Int) : Int :=
  blocks.getD ((buffer.length - bufferOffset) / ns.lbaSize)

/-- What surrounds the loop: the synchronization before it, and the flush after it if it did not raise. -/
def surround (before after : List Action) : List Action × Except Exn Unit → List Action × Except Exn Unit
  | (actions, .error e) => (before ++ actions, .error e)
  | (actions, .ok ()) => (before ++ actions ++ after, .ok ())

/-- `_transfer`; `gpu` is `_is_gpu_memory(buffer)`. -/
def Namespace.transfer (ns : Namespace) (fuel : Nat) (opcode : Int) (buffer : Region) (gpu : Bool) (slba : Int)
    (blocks : Option Int) (bufferOffset : Int) (execute : Nat → Option Exn) : Option (List Action × Except Exn Unit) :=
  let available := buffer.length - bufferOffset
  if blocks = none ∧ available % ns.lbaSize ≠ 0 then
    some ([], .error (.valueError "buffer length is not a whole number of LBAs"))
  else
    let blocks := ns.blocks buffer blocks bufferOffset
    if blocks ≤ 0 ∨ slba < 0 ∨ ns.sizeLbas < slba + blocks then
      some ([], .error (.valueError "I/O range is outside the namespace"))
    else
      let total := blocks * ns.lbaSize
      if bufferOffset < 0 ∨ available < total then
        some ([], .error (.valueError "I/O range is outside the registered buffer"))
      else
        let before := if gpu ∧ opcode = opcWrite then [Action.synchronize] else []
        let after := if gpu ∧ opcode = opcRead then [Action.flushGpudirectWrites] else []
        let maxBlocks := min 65536 (ns.maxTransferBytes / ns.lbaSize)
        if maxBlocks = 0 then
          some (before, .error (.runtimeError "namespace LBA size exceeds the controller transfer limit"))
        else
          (transferLoop ns opcode buffer maxBlocks execute fuel 0 blocks bufferOffset slba).map (surround before after)

/-- `read`. -/
def Namespace.read (ns : Namespace) (fuel : Nat) (buffer : Region) (gpu : Bool) (slba : Int) (blocks : Option Int)
    (bufferOffset : Int) (execute : Nat → Option Exn) : Option (List Action × Except Exn Unit) :=
  ns.transfer fuel opcRead buffer gpu slba blocks bufferOffset execute

/-- `write`. -/
def Namespace.write (ns : Namespace) (fuel : Nat) (buffer : Region) (gpu : Bool) (slba : Int) (blocks : Option Int)
    (bufferOffset : Int) (execute : Nat → Option Exn) : Option (List Action × Except Exn Unit) :=
  ns.transfer fuel opcWrite buffer gpu slba blocks bufferOffset execute

/-- `flush`. -/
def Namespace.flush (ns : Namespace) (execute : Nat → Option Exn) : List Action × Except Exn Unit :=
  match command opcFlush ns.nsid with
  | .error e => ([], .error e)
  | .ok command =>
      match execute 0 with
      | some e => ([.execute command], .error e)
      | none => ([.execute command], .ok ())

end Rdma4py.NvmeController
