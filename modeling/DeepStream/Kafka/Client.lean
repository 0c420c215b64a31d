/-
# The Kafka producer handle

`nvds_msgapi_send` and `nvds_msgapi_send_async` make a completion object, hand
the message with the object as its opaque pointer to librdkafka, and (for the
synchronous send) poll until the object's flag is set. Delivery reports are run
inside `rd_kafka_poll` of whatever thread polls: `dr_msg_cb` completes the object
and deletes it. Threads are stacks of frames, since a user callback may call into
the handle again; a step is what a thread does between two accesses of shared
memory.

A send is named by the number of its call, which also names its completion object
and its local variable `done`; `Sends` gives the arguments of the calls in the
order in which they come. `failed`, `answered`, `returned`, `reported`, `freed` and
`misused` are not in the source: they record what happened.
-/
import DeepStream.Lib.Run
import DeepStream.Lib.Stacks

namespace DeepStream
namespace Kafka

inductive NvDsMsgApiErrorType where
  | ok | err | unknownTopic
  deriving DecidableEq, Repr

/-- `rd_kafka_resp_err_t`. -/
inductive RespErr where
  | noError | unknownTopicOrPart | queueFull | other (code : ℕ)
  deriving DecidableEq, Repr

/-- What `dr_msg_cb` makes of the error of a report. -/
def RespErr.dserr : RespErr → NvDsMsgApiErrorType
  | .noError => .ok
  | .unknownTopicOrPart => .unknownTopic
  | _ => .err

/-- `NvDsKafkaSyncSendCompl` and `NvDsKafkaAsyncSendCompl`. -/
inductive NvDsKafkaSendCompl where
  | sync (complFlag : ℕ) (err : Option NvDsMsgApiErrorType)
  | async (userPtr : ℕ) (asyncSendCb : Option ℕ)
  deriving DecidableEq, Repr

/-- `get_err` is not virtual: called through a `NvDsKafkaSendCompl *` it is the
one of the base class, which reads nothing of the object. -/
def NvDsKafkaSendCompl.getErr : NvDsMsgApiErrorType := .ok

/-- A call of `nvds_msgapi_send` or `nvds_msgapi_send_async`; `nbuf` is the length
of the payload. -/
structure Call where
  sync : Bool
  topic : Option String
  payload : Option (List UInt8)
  userPtr : ℕ := 0
  sendCallback : Option ℕ := none
  deriving DecidableEq, Repr

namespace Call

/-- The arguments are not good for a message. -/
def Refused (c : Call) : Prop := c.topic = none ∨ c.topic = some "" ∨ c.payload = none ∨ c.payload = some []

instance (c : Call) : Decidable c.Refused := inferInstanceAs (Decidable (_ ∨ _))

/-- The completion object of call number `n`. -/
def compl (c : Call) (n : ℕ) : NvDsKafkaSendCompl :=
  if c.sync then .sync n none else .async c.userPtr c.sendCallback

end Call

structure Message where
  topic : String
  value : List UInt8
  key : Option String
  private_ : ℕ
  deriving DecidableEq, Repr

/-- `json_get_key_value` with the configured field, and the sensor id of the
payload read as a protobuf frame. -/
structure Keys where
  jsonGetKeyValue : List UInt8 → Option String
  sensorId : List UInt8 → String

/-- The key that picks the partition. -/
def Keys.of (keys : Keys) (sync : Bool) (payload : List UInt8) : Option String :=
  match keys.jsonGetKeyValue payload with
  | some key => some key
  | none => if sync ∨ keys.sensorId payload = "" then none else some (keys.sensorId payload)

/-- The calls that are made on the handle, by whichever threads. -/
structure Sends where
  keys : Keys
  calls : ℕ → Call

def Sends.message (p : Sends) (n : ℕ) : Message :=
  let c := p.calls n
  let payload := c.payload.getD []
  { topic := c.topic.getD "", value := payload, key := p.keys.of c.sync payload, private_ := n }

/-- Where `dr_msg_cb` is with a report. -/
inductive Report where
  | start
  | flagSet
  | inCallback
  | completed
  deriving DecidableEq, Repr

inductive Frame where
  | producing (m : Message)
  | waiting (n : ℕ)
  | returning (n : ℕ) (status : NvDsMsgApiErrorType)
  | polling
  | reporting (n : ℕ) (err : RespErr) (stage : Report)
  deriving DecidableEq, Repr

/-- The thread is outside the library. -/
def outside : List Frame → Bool
  | [] => true
  | .reporting _ _ .inCallback :: _ => true
  | _ => false

structure Client where
  threads : List (List Frame)
  next : ℕ := 0
  compls : ℕ → Option NvDsKafkaSendCompl := fun _ => none
  done : List ℕ := []
  queue : List Message := []
  failed : List ℕ := []
  answered : List ℕ := []
  returned : List (ℕ × NvDsMsgApiErrorType) := []
  reported : List (ℕ × RespErr) := []
  freed : List ℕ := []
  misused : List ℕ := []

inductive Action where
  | send (t : ℕ)
  | produce (t : ℕ) (err : RespErr)
  | doWork (t : ℕ)
  | report (t i : ℕ) (err : RespErr)
  | goOn (t : ℕ)
  deriving DecidableEq, Repr

namespace Client

variable (p : Sends) (s : Client)

def setStack (t : ℕ) (stack : List Frame) : Client := { s with threads := s.threads.set t stack }

/-- Up to `rd_kafka_producev`. -/
def send (t : ℕ) (stack : List Frame) : Client :=
  if (p.calls s.next).Refused then { s.setStack t (.returning s.next .err :: stack) with next := s.next + 1 }
  else { s.setStack t (.producing (p.message s.next) :: stack) with
    next := s.next + 1, compls := Function.update s.compls s.next (some ((p.calls s.next).compl s.next)) }

/-- `rd_kafka_producev` has taken the message or not. -/
def produce (t : ℕ) (stack : List Frame) (m : Message) (err : RespErr) : Client :=
  if err = .noError then
    let next := if (p.calls m.private_).sync then Frame.waiting m.private_ else .returning m.private_ .ok
    { s.setStack t (next :: stack) with queue := s.queue ++ [m] }
  else { s.setStack t (.returning m.private_ .err :: stack) with failed := m.private_ :: s.failed }

/-- A report is served: librdkafka calls `dr_msg_cb`. -/
def report (t : ℕ) (stack : List Frame) (i : ℕ) (m : Message) (err : RespErr) : Client :=
  { s.setStack t (.reporting m.private_ err .start :: stack) with
    queue := s.queue.eraseIdx i, reported := s.reported ++ [(m.private_, err)] }

/-- `sendcomplete`, up to the user's callback or the store to `err`. -/
def sendcomplete (t : ℕ) (stack : List Frame) (n : ℕ) (err : RespErr) : Client :=
  match s.compls n with
  | none => { s.setStack t (.reporting n err .completed :: stack) with misused := n :: s.misused }
  | some (.sync complFlag _) =>
    { s.setStack t (.reporting n err .flagSet :: stack) with done := complFlag :: s.done }
  | some (.async _ none) => s.setStack t (.reporting n err .completed :: stack)
  | some (.async _ (some _)) =>
    { s.setStack t (.reporting n err .inCallback :: stack) with answered := n :: s.answered }

/-- The store to `err` in `NvDsKafkaSyncSendCompl::sendcomplete`. -/
def setErr (t : ℕ) (stack : List Frame) (n : ℕ) (err : RespErr) : Client :=
  match s.compls n with
  | none => { s.setStack t (.reporting n err .completed :: stack) with misused := n :: s.misused }
  | some (.sync complFlag _) =>
    { s.setStack t (.reporting n err .completed :: stack) with
      compls := Function.update s.compls n (some (.sync complFlag (some err.dserr))) }
  | some (.async _ _) => s.setStack t (.reporting n err .completed :: stack)

/-- The end of `dr_msg_cb`. -/
def delete (t : ℕ) (stack : List Frame) (n : ℕ) : Client :=
  match s.compls n with
  | none => { s.setStack t stack with misused := n :: s.misused }
  | some _ => { s.setStack t stack with compls := Function.update s.compls n none, freed := n :: s.freed }

/-- The next thing the thread does that is not the environment's choice. -/
def goOn (t : ℕ) : List Frame → Option Client
  | .waiting n :: stack =>
    if n ∈ s.done then some (s.setStack t (.returning n NvDsKafkaSendCompl.getErr :: stack))
    else some (s.setStack t (.polling :: .waiting n :: stack))
  | .returning n status :: stack => some { s.setStack t stack with returned := s.returned ++ [(n, status)] }
  | .polling :: stack => some (s.setStack t stack)
  | .reporting n err .start :: stack => some (s.sendcomplete t stack n err)
  | .reporting n err .flagSet :: stack => some (s.setErr t stack n err)
  | .reporting n err .inCallback :: stack => some (s.setStack t (.reporting n err .completed :: stack))
  | .reporting n _ .completed :: stack => some (s.delete t stack n)
  | _ => none

def step (s : Client) : Action → Option Client
  | .send t => do
    let stack ← s.threads[t]?
    if outside stack then some (s.send p t stack) else none
  | .produce t err =>
    match s.threads[t]? with
    | some (.producing m :: stack) => some (s.produce p t stack m err)
    | _ => none
  | .doWork t => do
    let stack ← s.threads[t]?
    if outside stack then some (s.setStack t (.polling :: stack)) else none
  | .report t i err =>
    match s.threads[t]?, s.queue[i]? with
    | some (.polling :: stack), some m => some (s.report t (.polling :: stack) i m err)
    | _, _ => none
  | .goOn t => do
    let stack ← s.threads[t]?
    s.goOn t stack

/-- Any number of threads, none of which has called anything. -/
def Started (s : Client) : Prop := ∃ n, s = { threads := List.replicate n [] }

end Client
end Kafka
end DeepStream
