import Mathlib.Logic.Function.Basic
import Rdma4py.Lib.Machine
import Rdma4py.Lib.TrueDiv
import Rdma4py.ReadScheduler.Pipeline

/-!
# The public methods and the runs of a process

The process has one thread. A method runs until it returns, raises, or reaches a point where other code may run: the
call of `_on_complete`, the loop head of `wait`, or the `await` of `wait_async`. One event of the machine is such an
uninterrupted stretch. A callback may call any method, so the methods in progress form a stack.
-/

namespace Rdma4py.ReadScheduler

open Rdma4py.Lib

/-- How a stretch of a method ends. -/
inductive Outcome
  | returned (value : List Int)
  | raised (e : Exn)
  /-- The method is still running. -/
  | running
  deriving DecidableEq

namespace World

/-- Write back the scheduler and the batch that a method worked on. -/
def put (w : World) (self : SchedulerId) (b : BatchId) (x : Session) : World :=
  { w with schedulers := Function.update w.schedulers self x.scheduler
           batches := Function.update w.batches b x.batch }

/-- Write back a scheduler. -/
def setScheduler (w : World) (self : SchedulerId) (s : Scheduler) : World :=
  { w with schedulers := Function.update w.schedulers self s }

/-- A scheduler and a batch. -/
def session (w : World) (self : SchedulerId) (b : BatchId) : Session := ⟨w.schedulers self, w.batches b⟩

/-- A new frame on the stack. -/
def push (w : World) (f : Frame) : World := { w with stack := f :: w.stack }

/-- `batch.raise_for_status()` before `return value`. -/
def status (w : World) (b : BatchId) (value : List Int) : Outcome :=
  match (w.batches b).error with
  | some e => .raised e
  | none => .returned value

end World

/-! ## Checks -/

/-- `_ensure_usable`. -/
def ensureUsable (s : Scheduler) : Option Exn :=
  if s.closed then some (.runtimeError "RDMA read scheduler is closed")
  else if s.poisoned then some (.runtimeError "RDMA read scheduler is poisoned; recreate its QPs")
  else none

/-- `_validate_batch`. -/
def validateBatch (w : World) (self : SchedulerId) (b : BatchId) : Option Exn :=
  if (w.batches b).scheduler ≠ self then some (.valueError "batch does not belong to this scheduler")
  else if (w.batches b).done = false ∧ (w.schedulers self).active ≠ some b then
    some (.valueError "batch is not active")
  else none

/-- `_validate_wait_options`. -/
def validateWaitOptions (timeout : Option Int) (idleSleep : Int) : Option Exn :=
  if timeout.any (· ≤ 0) then some (.valueError "timeout must be positive or None")
  else if idleSleep < 0 then some (.valueError "idle_sleep must be non-negative")
  else none

/-- An argument that is one number for all QPs or one number for each. -/
inductive PerQp
  | one (value : Int)
  | each (values : List Int)

/-- `_per_qp_values`. -/
def perQpValues (qpCount : Nat) (values : PerQp) (name : String) : Except Exn (List Int) :=
  match values with
  | .one value => .ok (List.replicate qpCount value)
  | .each values =>
      if values.length = qpCount then .ok values
      else .error (.valueError (name ++ " must contain one value per QP"))

/-! ## `local_infos` and `connect` -/

/-- `local_infos`: the PSN used for each QP. `env` says whether reading the QP's information raises. -/
def localInfos (w : World) (self : SchedulerId) (psns : PerQp) (env : Option Exn) : World × Outcome :=
  match ensureUsable (w.schedulers self) with
  | some e => (w, .raised e)
  | none =>
      match perQpValues (w.schedulers self).config.qpCount psns "psns" with
      | .error e => (w, .raised e)
      | .ok values =>
          match env with
          | some e => (w, .raised e)
          | none => (w, .returned values)

/-- The arguments of `connect` that it reads itself; `remoteMtus` holds the MTU of each remote `QPInfo`. -/
structure ConnectArgs where
  remoteMtus : List Nat
  localPsns : PerQp
  mtu : Option Nat
  maxRdAtomic : Option Int
  maxDestRdAtomic : Option Int

/-- What the world answers in one `connect`: whether QP 0 leads to a context, what `query_device` and `query_port` return
and which transitions raise. -/
structure ConnectEnv where
  pdHasContext : Bool
  queryDevice : Except Exn Int
  queryPort : Nat → Except Exn Nat
  transition : Transition → Option Exn

/-- The atomic limits of `connect`, before their range checks. -/
def atomicLimits (s : Scheduler) (args : ConnectArgs) (env : ConnectEnv) : Except Exn (Int × Int) :=
  match args.maxRdAtomic, args.maxDestRdAtomic with
  | some rd, some dest => .ok (rd, dest)
  | rd, dest =>
      if s.hasContext then
        match env.queryDevice with
        | .error e => .error e
        | .ok maxQpRdAtom =>
            let limit := min (s.config.queueDepth : Int) (max 1 maxQpRdAtom)
            .ok (rd.getD limit, dest.getD limit)
      else .ok (rd.getD s.config.queueDepth, dest.getD s.config.queueDepth)

/-- The transitions of one QP, in order, up to one that raises. -/
def runTransitions (env : ConnectEnv) : List Transition → List Transition × Option Exn
  | [] => ([], none)
  | t :: ts =>
      match env.transition t with
      | some e => ([t], some e)
      | none => let r := runTransitions env ts; (t :: r.1, r.2)

/-- The `try` block of `connect`, over the QPs that are left: their index, remote MTU and PSN. -/
def connectQps (mtu : Option Nat) (maxRd maxDest : Int) (env : ConnectEnv) :
    List (Nat × Nat × Int) → List Transition × Option Exn
  | [] => ([], none)
  | (q, remoteMtu, psn) :: qps =>
      let negotiated : Except Exn Nat := match mtu with
        | some m => .ok m
        | none => (env.queryPort q).map fun localMtu => min localMtu remoteMtu
      match negotiated with
      | .error e => ([], some e)
      | .ok m =>
          match runTransitions env [.toInit q, .toRtr q m maxDest, .toRts q psn maxRd] with
          | (done, some e) => (done, some e)
          | (done, none) => let r := connectQps mtu maxRd maxDest env qps; (done ++ r.1, r.2)

/-- `connect`. -/
def connect (w : World) (self : SchedulerId) (args : ConnectArgs) (env : ConnectEnv) : World × Outcome :=
  let s := w.schedulers self
  match ensureUsable s with
  | some e => (w, .raised e)
  | none =>
      if args.remoteMtus.length ≠ s.config.qpCount then
        (w, .raised (.valueError "remote_infos must contain one QPInfo per local QP"))
      else
        match perQpValues s.config.qpCount args.localPsns "local_psns" with
        | .error e => (w, .raised e)
        | .ok psns =>
            let s := { s with hasContext := s.hasContext || env.pdHasContext }
            match atomicLimits s args env with
            | .error e => (w.setScheduler self s, .raised e)
            | .ok (maxRd, maxDest) =>
                if ¬ (1 ≤ maxRd ∧ maxRd ≤ 255) then
                  (w.setScheduler self s, .raised (.valueError "max_rd_atomic must be between 1 and 255"))
                else if ¬ (1 ≤ maxDest ∧ maxDest ≤ 255) then
                  (w.setScheduler self s, .raised (.valueError "max_dest_rd_atomic must be between 1 and 255"))
                else
                  let qps := (List.range s.config.qpCount).zip (args.remoteMtus.zip psns)
                  let r := connectQps args.mtu maxRd maxDest env qps
                  let s := { s with
                    provider := { s.provider with transitions := s.provider.transitions ++ r.1 } }
                  match r.2 with
                  | some e => (w.setScheduler self (poisonResources s), .raised e)
                  | none => (w.setScheduler self s, .returned [])

/-! ## `submit` -/

/-- The `on_complete` argument. -/
inductive OnComplete
  | none
  | callable
  | notCallable
  deriving DecidableEq, Repr

/-- `sum(math.ceil(request.length / self.chunk_size) for request in requests)`. -/
def totalChunks (chunkSize : Nat) (requests : List RdmaReadRequest) : Nat :=
  (requests.map fun r => (trueDiv r.length chunkSize).ceil).sum

/-- `submit`. An element of `items` is `none` when the object is not a request. -/
def submit (w : World) (self : SchedulerId) (items : List (Option RdmaReadRequest)) (onComplete : OnComplete)
    (env : RefillEnv) : World × Outcome :=
  let s := w.schedulers self
  match ensureUsable s with
  | some e => (w, .raised e)
  | none =>
      if s.active.isSome then (w, .raised (.runtimeError "another RDMA read batch is already active"))
      else if onComplete = .notCallable then (w, .raised (.typeError "on_complete must be callable"))
      else
        match items.mapM id with
        | none => (w, .raised (.typeError "requests must contain RdmaReadRequest or RdmaWriteRequest objects"))
        | some requests =>
            let total := totalChunks s.config.chunkSize requests
            let b := w.nextBatch
            let batch := Batch.new self requests total (onComplete = .callable)
            let s := { s with active := some b, chunkIter := some (iterChunks s.config.chunkSize requests)
                              inputExhausted := total = 0 }
            let w := { w with nextBatch := b + 1 }
            if total = 0 then
              match finishSuccess ⟨s, batch⟩ with
              | (x, true) => ((w.put self b x).push (.callback b .submit), .running)
              | (x, false) => (w.put self b x, .returned [(b : Int)])
            else
              match refill env b s with
              | (s, none) => (w.put self b ⟨s, batch⟩, .returned [(b : Int)])
              | (s, some e) =>
                  (w.put self b (failTransport ⟨s, batch⟩ e (some "posting RDMA reads failed")),
                    .raised (transportError e (some "posting RDMA reads failed")))

/-! ## `progress` -/

/-- `progress`. -/
def progress (w : World) (self : SchedulerId) (b : BatchId) (env : ProgressEnv) : World × ProgressEnd :=
  match validateBatch w self b with
  | some e => (w, .raised e)
  | none =>
      if (w.batches b).done then
        match (w.batches b).error with
        | some e => (w, .raised e)
        | none => (w, .returned 0)
      else
        let r := progressBody env b (w.session self b)
        (w.put self b r.1, r.2)

/-! ## `wait` and `wait_async` -/

/-- What the world answers in one iteration of the loop of `wait` or `wait_async`: to `progress`, to `_clock()` and to
`time.sleep`. -/
structure WaitEnv where
  progress : ProgressEnv
  clock : Except Exn Int
  sleep : Option Exn

/-- `except BaseException as error` of `wait` and `wait_async`. -/
def waitHandler (w : World) (wt : Waiter) (error : Exn) : World × Outcome :=
  if (w.batches wt.batch).done then (w, .raised error)
  else (w.put wt.scheduler wt.batch (failTransport (w.session wt.scheduler wt.batch) error none), .raised error)

/-- How an iteration of the loop leaves the method. -/
inductive WaitEnd
  | ended (o : Outcome)
  | callback
  | again

/-- The text of the timeout error. -/
def timeoutError (batch : Batch) : Exn :=
  .rdmaReadTimeout ("timed out after " ++ toString batch.completedChunks ++ " of " ++
    toString batch.totalChunks ++ " RDMA reads completed")

/-- `if completed == 0 and idle_sleep: time.sleep(idle_sleep)`; `sleep` is the exception it raises, and stays `none` in
the asynchronous method. -/
def waitSleep (w : World) (wt : Waiter) (completed : Nat) (sleep : Option Exn) : World × WaitEnd :=
  match sleep with
  | some e => if completed = 0 ∧ wt.idleSleep ≠ 0 then ((waitHandler w wt e).1, .ended (.raised e)) else (w, .again)
  | none => (w, .again)

/-- The part of an iteration after `progress` returned on an unfinished batch: the deadline, then the sleep. -/
def waitTail (w : World) (wt : Waiter) (completed : Nat) (clock : Except Exn Int) (sleep : Option Exn) :
    World × WaitEnd :=
  match wt.deadline with
  | none => waitSleep w wt completed sleep
  | some deadline =>
      match clock with
      | .error e => ((waitHandler w wt e).1, .ended (.raised e))
      | .ok now =>
          if deadline ≤ now then
            let error := timeoutError (w.batches wt.batch)
            (w.put wt.scheduler wt.batch (failTransport (w.session wt.scheduler wt.batch) error none),
              .ended (.raised error))
          else waitSleep w wt completed sleep

/-- `while not batch.done`: one iteration, or the statements after the loop. -/
def waitIteration (w : World) (wt : Waiter) (env : WaitEnv) : World × WaitEnd :=
  if (w.batches wt.batch).done then (w, .ended (w.status wt.batch [(wt.batch : Int)]))
  else
    match progress w wt.scheduler wt.batch env.progress with
    | (w, .raised e) => ((waitHandler w wt e).1, .ended (.raised e))
    | (w, .callback _) => (w, .callback)
    | (w, .returned completed) =>
        if (w.batches wt.batch).done then (w, .ended (w.status wt.batch [(wt.batch : Int)]))
        else waitTail w wt completed env.clock env.sleep

/-- Up to the loop of `wait` and `wait_async`: the checks and the deadline. `start` answers `_clock()`. -/
def waitSetup (self : SchedulerId) (b : BatchId) (timeout : Option Int) (idleSleep : Int) (start : Except Exn Int) :
    Except Exn Waiter :=
  match validateWaitOptions timeout idleSleep with
  | some e => .error e
  | none =>
      match timeout with
      | none => .ok ⟨self, b, none, idleSleep⟩
      | some t => start.map fun now => ⟨self, b, some (now + t), idleSleep⟩

/-- An iteration of `wait`: the loop goes on with the waiter on the stack. -/
def waitStretch (w : World) (wt : Waiter) (env : WaitEnv) : World × Outcome :=
  match waitIteration w wt env with
  | (w, .ended o) => (w, o)
  | (w, .callback) => (w.push (.callback wt.batch .wait), .running)
  | (w, .again) => (w.push (.wait wt), .running)

/-- An iteration of `wait_async` up to its `await`, where the task is suspended. -/
def waitAsyncStretch (w : World) (wt : Waiter) (env : WaitEnv) : World × Outcome :=
  match waitIteration w wt { env with sleep := none } with
  | (w, .ended o) => (w, o)
  | (w, .callback) => (w.push (.callback wt.batch .wait), .running)
  | (w, .again) => ({ w with tasks := w.tasks ++ [wt] }, .running)

/-! ## `close` -/

/-- `close`. -/
def close (w : World) (self : SchedulerId) (env : Resource → Option Exn) : World × Outcome :=
  let s := w.schedulers self
  if s.closed then (w, .returned [])
  else
    let w : World := match s.active with
      | none => w
      | some a =>
          if (w.batches a).done then w
          else
            { w with batches := Function.update w.batches a { w.batches a with
                error := some (.rdmaReadError "RDMA read scheduler closed with work in flight"), done := true } }
    let r := closeOwned env { s with active := none, pending := ∅, outstanding := fun _ => 0, closed := true }
    (w.setScheduler self r.1, match r.2 with | some e => .raised e | none => .returned [])

/-! ## Callbacks -/

/-- The callback of a batch returns or raises, and the method that called it ends. -/
def callbackReturns (w : World) (b : BatchId) (caller : Caller) (raised : Option Exn) : World × Outcome :=
  let w : World := match raised with
    | none => w
    | some e => { w with batches := Function.update w.batches b { w.batches b with error := some e } }
  match caller with
  | .submit => (w, .returned [(b : Int)])
  | .progress completed => (w, .returned [(completed : Int)])
  | .wait => (w, w.status b [(b : Int)])

/-! ## The machine -/

/-- A call of a public method, with what the world answers to it. -/
inductive Call
  | localInfos (psns : PerQp) (env : Option Exn)
  | connect (args : ConnectArgs) (env : ConnectEnv)
  | submit (items : List (Option RdmaReadRequest)) (onComplete : OnComplete) (env : RefillEnv)
  | progress (b : BatchId) (env : ProgressEnv)
  | wait (b : BatchId) (timeout : Option Int) (idleSleep : Int) (start : Except Exn Int) (env : WaitEnv)
  | waitAsync (b : BatchId) (timeout : Option Int) (idleSleep : Int) (start : Except Exn Int) (env : WaitEnv)
  | close (env : Resource → Option Exn)

/-- An event: a call on a scheduler, the next iteration of the innermost `wait`, a suspended `wait_async` that is resumed
or cancelled, or the return of the innermost callback. -/
inductive Event
  | call (self : SchedulerId) (c : Call)
  | iterate (env : WaitEnv)
  | resume (task : Nat) (env : WaitEnv)
  | cancel (task : Nat) (e : Exn)
  | callbackReturns (raised : Option Exn)

/-- The first stretch of a call. -/
def World.call (w : World) (self : SchedulerId) : Call → World × Outcome
  | .localInfos psns env => localInfos w self psns env
  | .connect args env => connect w self args env
  | .submit items onComplete env => submit w self items onComplete env
  | .progress b env =>
      match progress w self b env with
      | (w, .raised e) => (w, .raised e)
      | (w, .returned n) => (w, .returned [(n : Int)])
      | (w, .callback n) => (w.push (.callback b (.progress n)), .running)
  | .wait b timeout idleSleep start env =>
      match waitSetup self b timeout idleSleep start with
      | .error e => (w, .raised e)
      | .ok wt => waitStretch w wt env
  | .waitAsync b timeout idleSleep start env =>
      match waitSetup self b timeout idleSleep start with
      | .error e => (w, .raised e)
      | .ok wt => waitAsyncStretch w wt env
  | .close env => close w self env

/-- The batch that a call names. -/
def Call.batch? : Call → Option BatchId
  | .progress b _ | .wait b _ _ _ _ | .waitAsync b _ _ _ _ => some b
  | .localInfos _ _ | .connect _ _ | .submit _ _ _ | .close _ => none

/-- Whether the code that runs now is the caller's own: at the top level or in a callback. -/
def World.callerRuns (w : World) : Bool :=
  match w.stack with
  | [] | .callback _ _ :: _ => true
  | .wait _ :: _ => false

/-- The task of an index; the default is never used for an enabled event. -/
def World.task (w : World) (i : Nat) : Waiter := w.tasks.getD i ⟨0, 0, none, 0⟩

/-- What may happen next. A batch that a call names exists; coroutines run from the event loop, outside of callbacks. -/
def World.Enabled (w : World) : Event → Prop
  | .call _ c =>
      w.callerRuns = true ∧ (∀ b ∈ c.batch?, b < w.nextBatch) ∧
        (match c with | .waitAsync .. => w.stack = [] | _ => True)
  | .iterate _ => ∃ wt rest, w.stack = .wait wt :: rest
  | .resume i _ | .cancel i _ => w.stack = [] ∧ i < w.tasks.length
  | .callbackReturns _ => ∃ b caller rest, w.stack = .callback b caller :: rest

instance : DecidableRel World.Enabled
  | w, .call _ c =>
      have : Decidable (match c with | .waitAsync .. => w.stack = [] | _ => True) :=
        match c with
        | .waitAsync .. => inferInstanceAs (Decidable (w.stack = []))
        | .localInfos .. | .connect .. | .submit .. | .progress .. | .wait .. | .close .. => .isTrue trivial
      inferInstanceAs (Decidable (_ ∧ _ ∧ _))
  | w, .iterate _ =>
      match h : w.stack with
      | .wait wt :: rest => .isTrue ⟨wt, rest, h⟩
      | .callback .. :: _ | [] => .isFalse (by rintro ⟨_, _, h'⟩; rw [h] at h'; cases h')
  | w, .resume i _ => inferInstanceAs (Decidable (w.stack = [] ∧ i < w.tasks.length))
  | w, .cancel i _ => inferInstanceAs (Decidable (w.stack = [] ∧ i < w.tasks.length))
  | w, .callbackReturns _ =>
      match h : w.stack with
      | .callback b caller :: rest => .isTrue ⟨b, caller, rest, h⟩
      | .wait _ :: _ | [] => .isFalse (by rintro ⟨_, _, _, h'⟩; rw [h] at h'; cases h')

/-- The world after an event, and how the stretch ended. -/
def World.step (w : World) : Event → World × Outcome
  | .call self c => w.call self c
  | .iterate env =>
      match w.stack with
      | .wait wt :: rest => waitStretch { w with stack := rest } wt env
      | _ => (w, .running)
  | .resume i env => waitAsyncStretch { w with tasks := w.tasks.eraseIdx i } (w.task i) env
  | .cancel i e => waitHandler { w with tasks := w.tasks.eraseIdx i } (w.task i) e
  | .callbackReturns raised =>
      match w.stack with
      | .callback b caller :: rest => callbackReturns { w with stack := rest } b caller raised
      | _ => (w, .running)

/-- The process as a machine. -/
def process : Machine World Event where
  Enabled := World.Enabled
  next w e := (w.step e).1

instance : DecidableRel process.Enabled := inferInstanceAs (DecidableRel World.Enabled)

/-- A process whose schedulers were just constructed. -/
def World.Initial (w : World) : Prop :=
  (∀ self, (w.schedulers self).Fresh) ∧ w.nextBatch = 0 ∧ w.stack = [] ∧ w.tasks = []

end Rdma4py.ReadScheduler
