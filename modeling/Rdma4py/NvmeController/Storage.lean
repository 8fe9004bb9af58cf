import Rdma4py.Lib.Copy
import Rdma4py.NvmeController.Namespace
import Rdma4py.NvmeController.Lemmas.Transfer
import Rdma4py.NvmeQueue.Calls

/-!
# What the calls of a namespace do to the media

The I/O queue with the disks and the memory of the host. The target moves the bytes of a command while it holds its
capsule, piece by piece and in any order, and answers with success when all have arrived. A program calls `read`,
`write` and `flush` of its namespaces, and writes to its own memory between the calls.
-/

namespace Rdma4py.NvmeController.Storage

open Rdma4py.Lib
open NvmeQueue (Exn World Outcome executeStart executeIteration)

/-! ## Media -/

/-- A byte of a namespace, or of the memory of the host. -/
inductive Place
  | disk (nsid offset : Nat)
  | host (addr : Nat)
  deriving DecidableEq

abbrev Media := Place → UInt8

/-- The bytes of a command: from the host to the disk if it stores, else from the disk to the host. -/
structure Transfer where
  stores : Bool
  nsid : Nat
  disk : Nat
  host : Nat
  length : Nat
  deriving DecidableEq

/-- The transfer as a copy. -/
def Transfer.copy (x : Transfer) : Copy Place where
  length := x.length
  source i := if x.stores then .host (x.host + i) else .disk x.nsid (x.disk + i)
  target i := if x.stores then .disk x.nsid (x.disk + i) else .host (x.host + i)

/-- The media after the transfer. -/
def Transfer.run (x : Transfer) (m : Media) : Media
  | .disk nsid offset =>
      if x.stores ∧ nsid = x.nsid ∧ x.disk ≤ offset ∧ offset < x.disk + x.length then m (.host (x.host + (offset - x.disk)))
      else m (.disk nsid offset)
  | .host addr =>
      if ¬ x.stores ∧ x.host ≤ addr ∧ addr < x.host + x.length then m (.disk x.nsid (x.disk + (addr - x.host)))
      else m (.host addr)

/-! ## The target -/

/-- The block size of each namespace, and the memory that was registered under each key. -/
structure Target where
  lbaSize : Nat → Nat
  region : Nat → Option Region

/-- What the target is told to move. It moves nothing for other commands, for an SGL that does not hold the blocks, or
outside of the region of its key. -/
def Target.decode (t : Target) (c : List UInt8) : Option Transfer :=
  let opcode : Int := leNat (slice c 0 1)
  let nsid := leNat (slice c 4 4)
  let (lba, blocks) := lbaRange c
  let (addr, length) := sglRange c
  match t.region (leNat (slice c 35 4)) with
  | none => none
  | some region =>
      if (opcode = opcWrite ∨ opcode = opcRead) ∧ length = blocks * t.lbaSize nsid ∧ region.addr ≤ addr ∧
          (addr + length : Int) ≤ region.addr + region.length then
        some ⟨opcode = opcWrite, nsid, lba * t.lbaSize nsid, addr, length⟩
      else none

/-- The I/O queue and the media. -/
structure System where
  io : World
  media : Media

/-- An event of a queue that is none of its caller's. -/
def Passive : NvmeQueue.Event → Prop
  | .deliver | .complete _ | .answer _ _ => True
  | _ => False

/-- The link moves, or the target moves bytes for a capsule that it holds. -/
inductive Event
  | link (e : NvmeQueue.Event)
  | move (i : Nat) (media : Media)

/-- The target answers with success when the bytes have arrived. -/
def Honest (t : Target) (s : System) : NvmeQueue.Event → Prop
  | .answer i data => (NvmeQueue.Completion.unpack data).succeeded = true →
      ∀ c x, s.io.link.capsules[i]? = some c → t.decode c.bytes = some x → x.copy.Done s.media
  | _ => True

/-- The link and the target as a machine. -/
def surroundings (t : Target) : Machine System Event where
  Enabled s
    | .link e => Passive e ∧ s.io.Enabled e ∧ Honest t s e
    | .move i media => ∃ c x, s.io.link.capsules[i]? = some c ∧ t.decode c.bytes = some x ∧ x.copy.Within s.media media
  next s
    | .link e => { s with io := (s.io.step e).1 }
    | .move _ media => { s with media := media }

/-! ## `execute` -/

variable (t : Target)

/-- The loop of `execute`, up to its end. -/
inductive Loops : System → Outcome → System → Prop
  | waits {s o s'} (e : Event) : (surroundings t).Enabled s e → Loops ((surroundings t).next s e) o s' → Loops s o s'
  | goesOn {s o s'} (x count now io) : s.io.executing = some x → executeIteration s.io x count now = (io, .running) →
      Loops { s with io := io } o s' → Loops s o s'
  | ends {s} (x count now io o) : s.io.executing = some x → executeIteration s.io x count now = (io, o) →
      o ≠ .running → Loops s o { s with io := io }

/-- A call of `execute`. -/
inductive Executes (command : List UInt8) : System → Outcome → System → Prop
  | waits {s o s'} (e : Event) : (surroundings t).Enabled s e → Executes command ((surroundings t).next s e) o s' →
      Executes command s o s'
  | refused {s} (owner timeout now post io e) : executeStart s.io command owner timeout now post = (io, .raised e) →
      Executes command s (.raised e) { s with io := io }
  | begins {s o s'} (owner timeout now post io) : executeStart s.io command owner timeout now post = (io, .running) →
      Loops t { s with io := io } o s' → Executes command s o s'

/-- What a call raised. -/
def raised? : Outcome → Option Exn
  | .raised e => some e
  | _ => none

/-- Commands are executed one after the other, and `execute k` is what the `k`-th raised. -/
inductive Performs (execute : Nat → Option Exn) : Nat → System → List (List UInt8) → System → Prop
  | nil (k s) : Performs execute k s [] s
  | cons {k s o s₁ c cs s'} : Executes t c s o s₁ → raised? o = execute k → Performs execute (k + 1) s₁ cs s' →
      Performs execute k s (c :: cs) s'

/-! ## Calls -/

/-- A call of a namespace. -/
inductive Call
  | read (ns : Namespace) (buffer : Region) (gpu : Bool) (slba : Int) (blocks : Option Int) (offset : Int)
  | write (ns : Namespace) (buffer : Region) (gpu : Bool) (slba : Int) (blocks : Option Int) (offset : Int)
  | flush (ns : Namespace)

/-- The commands that the call executes, and what it raises. -/
def Call.run (fuel : Nat) (execute : Nat → Option Exn) : Call → Option (List Action × Except Exn Unit)
  | .read ns buffer gpu slba blocks offset => ns.read fuel buffer gpu slba blocks offset execute
  | .write ns buffer gpu slba blocks offset => ns.write fuel buffer gpu slba blocks offset execute
  | .flush ns => some (ns.flush execute)

/-- What a program does: it calls a namespace, or changes its own memory. -/
inductive Step
  | call (c : Call) (result : Except Exn Unit)
  | stores (media : Media)

/-- The disks of two media are the same. -/
def SameDisks (m m' : Media) : Prop := ∀ nsid offset, m' (.disk nsid offset) = m (.disk nsid offset)

/-- The call gave up on a command, which may still be pending. -/
def Step.TimedOut : Step → Prop
  | .call _ (.error (.timeoutError _)) => True
  | _ => False

/-- A run of a program, with what its calls returned. -/
inductive Session : System → List Step → System → Prop
  | nil (s) : Session s [] s
  | call {s c result steps s₁ s'} (fuel execute actions) : c.run fuel execute = some (actions, result) →
      Performs t execute 0 s (issued actions) s₁ → Session s₁ steps s' → Session s (.call c result :: steps) s'
  | stores {s media steps s'} : SameDisks s.media media → Session { s with media := media } steps s' →
      Session s (.stores media :: steps) s'

/-! ## What the calls are for -/

/-- A range of blocks, and the bytes of a buffer from an offset on. -/
def range (ns : Namespace) (stores : Bool) (buffer : Region) (lba blocks offset : Int) : Transfer :=
  ⟨stores, ns.nsid.toNat, (lba * ns.lbaSize).toNat, (buffer.addr + offset).toNat, (blocks * ns.lbaSize).toNat⟩

/-- What a call is to move. -/
def Call.transfer : Call → Transfer
  | .read ns buffer _ slba blocks offset => range ns false buffer slba (ns.blocks buffer blocks offset) offset
  | .write ns buffer _ slba blocks offset => range ns true buffer slba (ns.blocks buffer blocks offset) offset
  | .flush _ => ⟨true, 0, 0, 0, 0⟩

/-- The namespace of a call. -/
def Call.ns : Call → Namespace
  | .read ns .. | .write ns .. | .flush ns => ns

/-- What a call does to the media: it moves its range. One that raises has moved the front of it, and leaves open no more
than one command moves. -/
def Call.Effect (c : Call) (m m' : Media) : Except Exn Unit → Prop
  | .ok () => c.transfer.copy.Made m m'
  | .error _ => ∃ done limit : Nat, (limit : Int) ≤ done + c.ns.maxTransferBytes ∧ c.transfer.copy.Moved done limit m m'

/-- A run of a program on media alone, where each call is one step. -/
inductive Follows : Media → List Step → Media → Prop
  | nil (m) : Follows m [] m
  | call {m c result m₁ steps m'} : c.Effect m m₁ result → Follows m₁ steps m' → Follows m (.call c result :: steps) m'
  | stores {m media steps m'} : SameDisks m media → Follows media steps m' → Follows m (.stores media :: steps) m'

end Rdma4py.NvmeController.Storage
