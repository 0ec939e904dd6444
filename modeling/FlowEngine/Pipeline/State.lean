import FlowEngine.Lib.Mpsc
import FlowEngine.Lib.Oneshot
import FlowEngine.Lib.Transition
import FlowEngine.Pipeline.Redact
import Mathlib.Logic.Function.Basic

namespace flow_engine.write_pipeline

/-- The two channels between the writers and the flush loop. -/
inductive Lane where
  | critical
  | advisory
  deriving DecidableEq

/-- The channel whose branch `select!` does not run. -/
def Lane.other : Lane → Lane
  | .critical => .advisory
  | .advisory => .critical

/-- An event as a channel accepted it: the count behind its `seq`, the channel, and
whether the pipeline's handle still held its shutdown sender. -/
structure Source where
  number : Nat
  lane : Lane
  early : Bool
  event : WriteEvent

/-- An event inside the pipeline, in its present form. -/
structure Entry where
  source : Source
  event : WriteEvent

inductive WriteHandleError where
  | ChannelClosed
  deriving DecidableEq

/-- Configuration of the flush loop. `allocates` stands for the memory of the process: the
capacities for which `Vec::with_capacity` returns. -/
structure WritePipelineConfig where
  batch_size : Nat
  flush_interval_ms : Nat
  allocates : Nat → Bool

namespace WritePipelineConfig

/-- `WritePipelineConfig::default`. -/
def default (allocates : Nat → Bool) : WritePipelineConfig where
  batch_size := 500
  flush_interval_ms := 100
  allocates

/-- The flush loop gets its batch and its interval, which must not be empty. -/
def starts (config : WritePipelineConfig) : Bool :=
  config.allocates config.batch_size && config.flush_interval_ms != 0

end WritePipelineConfig

/-- A pipeline with the capacities of its channels. The store is known by the outcomes of
the calls of `write_batch`, which stores nothing when it fails. -/
structure WritePipeline where
  config : WritePipelineConfig
  capacity : Lane → Nat
  redactor : Redactor
  node_meta : String → Option NodeMeta
  fails : Nat → Bool

/-- Where the flush loop goes on after a flush. -/
inductive Resume where
  | adaptive
  | head
  | exit
  deriving DecidableEq

/-- The next thing the flush loop does. -/
inductive Pc where
  | start
  | poll_shutdown
  | poll (lane : Lane)
  | poll_tick
  | drain (lanes : List Lane) (exiting : Bool)
  | adaptive
  | adaptive_advisory (critical_empty : Bool)
  | flush (resume : Resume)
  | write (redacted : List Entry) (resume : Resume)
  | retry (redacted : List Entry) (resume : Resume)
  | returned
  | panicked

/-- The flush loop's task has ended, which is what `shutdown` waits for. -/
def Pc.over : Pc → Bool
  | .returned | .panicked => true
  | _ => false

/-- The writers and the flush loop. `next_seq` counts without wrapping; `accepted` and
`lost` are the history of what the channels took and what the loop dropped as it ended. -/
structure PipelineState where
  next_seq : Nat
  waiting : List (Nat × WriteEvent)
  channels : Lane → mpsc.Channel Entry
  shutdown : oneshot.Sender
  batch : List Entry
  channel_open : Lane → Bool
  pc : Pc
  calls : Nat
  stored : List Entry
  accepted : List Source
  lost : List Entry

/-- `WriteHandle::new` and `WritePipeline::spawn`. -/
def spawn (p : WritePipeline) : PipelineState where
  next_seq := 1
  waiting := []
  channels lane := .new (p.capacity lane)
  shutdown := .held
  batch := []
  channel_open _ := true
  pc := .start
  calls := 0
  stored := []
  accepted := []
  lost := []

namespace PipelineState

/-- The channel takes an event. -/
def accept (s : PipelineState) (lane : Lane) (number : Nat) (event : WriteEvent) :
    Except mpsc.TrySendError PipelineState :=
  let source : Source := ⟨number, lane, s.shutdown = .held, event⟩
  ((s.channels lane).try_send ⟨source, event⟩).map fun ch =>
    { s with channels := Function.update s.channels lane ch, accepted := s.accepted ++ [source] }

/-- `WriteHandle::write` up to its first suspension: the event is numbered and waits for room. -/
def write (s : PipelineState) (event : WriteEvent) : PipelineState :=
  { s with
    next_seq := s.next_seq + 1
    waiting := s.waiting ++ [(s.next_seq, event.set_seq (s.next_seq % 2 ^ 64))] }

/-- The outcome of a waiting `write` that is polled, `none` while the channel is full. -/
def send (s : PipelineState) (index : Nat) : Option (PipelineState × Except WriteHandleError Unit) :=
  match s.waiting[index]? with
  | none => none
  | some (number, event) =>
    let resumed := { s with waiting := s.waiting.eraseIdx index }
    match resumed.accept .critical number event with
    | .ok next => some (next, .ok ())
    | .error .Closed => some (resumed, .error .ChannelClosed)
    | .error .Full => none

/-- Emit a diagnostic event through the advisory channel, dropped if that is full. -/
def try_write (s : PipelineState) (event : WriteEvent) : PipelineState × Except WriteHandleError Unit :=
  let numbered := { s with next_seq := s.next_seq + 1 }
  match numbered.accept .advisory s.next_seq (event.set_seq (s.next_seq % 2 ^ 64)) with
  | .ok next => (next, .ok ())
  | .error .Closed => (numbered, .error .ChannelClosed)
  | .error .Full => (numbered, .ok ())

/-- The task ends: the batch and the receivers are dropped with what they hold. -/
def finish (s : PipelineState) (pc : Pc) : PipelineState :=
  { s with
    pc
    batch := []
    channels := fun lane => (s.channels lane).close_receiver
    lost := s.batch ++ (s.channels .critical).queue ++ (s.channels .advisory).queue }

/-- The last flush of the loop, if there is anything to flush. -/
def flush_and_return (s : PipelineState) : PipelineState :=
  if s.batch.isEmpty then s.finish .returned else { s with pc := .flush .exit }

def resume_at (s : PipelineState) : Resume → PipelineState
  | .adaptive => { s with pc := .adaptive }
  | .head => { s with pc := .poll_shutdown }
  | .exit => s.finish .returned

/-- A received event goes into the batch. -/
def receive (s : PipelineState) (lane : Lane) (entry : Entry) : PipelineState :=
  { s with
    channels := Function.update s.channels lane (s.channels lane).taken
    batch := s.batch ++ [entry] }

/-- The branch of `select!` that receives from a channel. -/
def poll_channel (s : PipelineState) (lane : Lane) (skipped : Pc) : PipelineState :=
  if s.channel_open lane then
    match (s.channels lane).peek with
    | .message entry => { s.receive lane entry with pc := .drain [lane, lane.other] false }
    | .disconnected =>
      let closed := { s with channel_open := Function.update s.channel_open lane false }
      if s.channel_open lane.other then { closed with pc := .adaptive } else closed.flush_and_return
    | .empty => { s with pc := skipped }
  else { s with pc := skipped }

end PipelineState

/-- Redaction of an event in the pipeline. -/
def redact_entry (p : WritePipeline) (entry : Entry) : Option Entry :=
  (redact_event p.redactor p.node_meta entry.event).map fun event => { entry with event }

/-- One step of `flush_loop`, `drain_channel` and `flush_batch`. The branches of the biased
`select!` are polled in order and, if none is ready, polled again; `elapsed` is whether the
interval has ticked. -/
def proceed (p : WritePipeline) (s : PipelineState) (elapsed : Bool) : Option PipelineState :=
  match s.pc with
  | .start => if p.config.starts then some { s with pc := .poll_shutdown } else some (s.finish .panicked)
  | .poll_shutdown =>
    match oneshot.try_recv s.shutdown with
    | .error .Empty => some { s with pc := .poll .critical }
    | _ => some { s with pc := .drain [.critical, .advisory] true }
  | .poll .critical => some (s.poll_channel .critical (.poll .advisory))
  | .poll .advisory => some (s.poll_channel .advisory .poll_tick)
  | .poll_tick =>
    if elapsed then some { s with pc := if s.batch.isEmpty then .adaptive else .flush .adaptive }
    else some { s with pc := .poll_shutdown }
  | .drain (lane :: lanes) exiting =>
    match (s.channels lane).peek with
    | .message entry => some (s.receive lane entry)
    | _ => some { s with pc := .drain lanes exiting }
  | .drain [] true => some s.flush_and_return
  | .drain [] false => some { s with pc := if p.config.batch_size ≤ s.batch.length then .flush .adaptive else .adaptive }
  | .adaptive =>
    if !s.batch.isEmpty && s.batch.length < 10 then
      some { s with pc := .adaptive_advisory (s.channels .critical).queue.isEmpty }
    else some { s with pc := .poll_shutdown }
  | .adaptive_advisory critical_empty =>
    let advisory_empty := (s.channels .advisory).queue.isEmpty
    some { s with pc := if critical_empty && advisory_empty then .flush .head else .poll_shutdown }
  | .flush resume =>
    match s.batch.mapM (redact_entry p) with
    | some redacted => some { s with batch := [], pc := .write redacted resume }
    | none => some (s.finish .panicked)
  | .write redacted resume =>
    if p.fails s.calls then some { s with calls := s.calls + 1, pc := .retry redacted resume }
    else some ({ s with calls := s.calls + 1, stored := s.stored ++ redacted }.resume_at resume)
  | .retry redacted resume =>
    if p.fails s.calls then
      some ({ s with
        calls := s.calls + 1
        batch := s.batch ++ redacted.filter (fun (entry : Entry) => entry.event.is_critical) }.resume_at resume)
    else some ({ s with calls := s.calls + 1, stored := s.stored ++ redacted }.resume_at resume)
  | .returned | .panicked => none

/-- What can happen next: a writer acts, the pipeline's owner acts, or the flush loop
takes a step. -/
inductive PipelineAction where
  | write (event : WriteEvent)
  | send (index : Nat)
  | abandon (index : Nat)
  | try_write (event : WriteEvent)
  | drop_senders (lane : Lane)
  | shutdown
  | drop_handle
  | proceed (elapsed : Bool)

/-- One action. Writers need a clone of the write handle, and a waiting `write` borrows one. -/
def pipeline_step (p : WritePipeline) (s : PipelineState) : PipelineAction → Option PipelineState
  | .write event => if (s.channels .critical).senders then some (s.write event) else none
  | .send index => (s.send index).map Prod.fst
  | .abandon index =>
    if index < s.waiting.length then some { s with waiting := s.waiting.eraseIdx index } else none
  | .try_write event => if (s.channels .advisory).senders then some (s.try_write event).1 else none
  | .drop_senders lane =>
    if lane = .advisory || s.waiting.isEmpty then
      some { s with channels := Function.update s.channels lane (s.channels lane).close_senders }
    else none
  | .shutdown => (oneshot.send s.shutdown).map fun shutdown => { s with shutdown }
  | .drop_handle => (oneshot.drop s.shutdown).map fun shutdown => { s with shutdown }
  | .proceed elapsed => proceed p s elapsed

/-- The runs of a pipeline from `spawn` on. -/
abbrev PipelineRun (p : WritePipeline) : List PipelineAction → PipelineState → Prop :=
  transition.Run (pipeline_step p) (fun _ _ => True) (spawn p)

end flow_engine.write_pipeline
