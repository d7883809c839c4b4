import TuyaBle.Lib.Dict
import TuyaBle.Protocol.Frame
import TuyaBle.Protocol.Reassembler
import TuyaBle.Commands.DataPoints
import TuyaBle.Commands.Handshake

/-!
# The state of one client and its event loop

`TuyaBleClient` has the fields of the class. `World` adds what the event loop holds
for it: where the task running `async_read_data_points` stands, the cancellation
requested of that task and not delivered yet, and the futures its requests wait on.
The reply tasks are the entries of `background`.
-/

namespace TuyaBle

/-- A connection, named by whoever established it. -/
abbrev Link := Nat

/-- The index of a future in the event loop's list. -/
abbrev FutureId := Nat

inductive Future where
  | pending
  | done (frame : Frame)
  | cancelled
  deriving DecidableEq

/-- The local variables of `_async_send`; `rest` are the packets it has yet to write. -/
structure Send where
  frame : Frame
  key : AesKey
  securityFlag : Nat
  client : Link
  payload : Bytes
  rest : List Bytes
  deriving DecidableEq

/-- A task running `_async_reply`: not started, or suspended in a write. -/
structure ReplyTask where
  frame : Frame
  send : Option Send
  deriving DecidableEq

structure TuyaBleClient where
  address : String
  credentials : TuyaBleCredentials
  loginKey : AesKey
  sessionKey : Option AesKey
  authenticationKey : Option AesKey
  protocolVersion : Nat
  client : Option Link
  reassembler : PacketReassembler
  pending : Dict Nat FutureId
  reports : List (List DataPoint)
  sequenceNumber : Nat
  background : List ReplyTask
  deriving DecidableEq

/-- `__init__`. -/
def TuyaBleClient.new (P : Primitives) (address : String) (credentials : TuyaBleCredentials) :
    TuyaBleClient where
  address := address
  credentials := credentials
  loginKey := TuyaBle.loginKey P credentials.localKey
  sessionKey := none
  authenticationKey := none
  protocolVersion := defaultProtocolVersion
  client := none
  reassembler := .new
  pending := []
  reports := []
  sequenceNumber := 1
  background := []

/-- The arguments of one call of `_async_request`. -/
structure Call where
  code : TuyaBleCommandCode
  data : Bytes
  key : Option AesKey := none
  securityFlag : Nat := securityFlagSessionKey
  unansweredError : ExceptionType := .tuyaBleConnectionError
  deriving DecidableEq

/-- The local variables of `_async_request` once its number is handed out. -/
structure Request where
  code : TuyaBleCommandCode
  sequenceNumber : Nat
  pending : FutureId
  unansweredError : ExceptionType
  deriving DecidableEq

abbrev Outcome := Except PyException (Dict Nat DataPoint)

/-- Where the session task stands. It is suspended in an await in the states marked so
and running in the others, which no other callback sees. -/
inductive Session where
  /-- No read is in progress. -/
  | idle
  /-- Await: `establish_connection`. -/
  | connecting
  /-- Await: `start_notify`. -/
  | subscribing
  /-- `_async_request` is called. -/
  | requesting (call : Call)
  /-- The head of the write loop of `_async_send`. -/
  | sending (request : Request) (send : Send)
  /-- Await: `write_gatt_char`. -/
  | writing (request : Request) (send : Send)
  /-- The frame is sent and its reply is awaited next. -/
  | replyDue (request : Request)
  /-- Await: `wait_for(pending, RESPONSE_TIMEOUT)`. -/
  | waiting (request : Request)
  /-- `_async_request` has returned. -/
  | replied (code : TuyaBleCommandCode) (reply : Frame)
  /-- An exception is raised in the `try` of `_async_request`. -/
  | failed (request : Request) (e : PyException)
  /-- The head of the loop of `_async_collect_report`. -/
  | draining (collected : Dict Nat DataPoint)
  /-- Await: `wait_for(self._reports.get(), timeout)`. -/
  | collecting (collected : Dict Nat DataPoint)
  /-- The block under the session's deadline is left. -/
  | leaving (outcome : Outcome)
  /-- Await: `client.disconnect()`. -/
  | disconnecting (outcome : Outcome)
  deriving DecidableEq

/-- Whether the task runs, instead of being suspended or not there. -/
def Session.running : Session → Bool
  | .requesting _ | .sending .. | .replyDue _ | .replied .. | .failed .. | .draining _
  | .leaving _ => true
  | _ => false

/-- The request whose `_async_request` has not been left. -/
def Session.request? : Session → Option Request
  | .sending request _ | .writing request _ | .replyDue request | .waiting request
  | .failed request _ => some request
  | _ => none

/-- The session's own `_async_send`, while it lasts. -/
def Session.send? : Session → Option Send
  | .sending _ send | .writing _ send => some send
  | _ => none

/-- The request about to be made. -/
def Session.call? : Session → Option Call
  | .requesting call => some call
  | _ => none

/-- The command of the request being made, from its call to the use of its reply. -/
def Session.command? : Session → Option TuyaBleCommandCode
  | .requesting call => some call.code
  | .sending request _ | .writing request _ | .replyDue request | .waiting request
  | .failed request _ => some request.code
  | .replied code _ => some code
  | _ => none

/-- The reply about to be used, with the command it answers. -/
def Session.reply? : Session → Option (TuyaBleCommandCode × Frame)
  | .replied code reply => some (code, reply)
  | _ => none

/-- The teardown has reset the session state. -/
def Session.over : Session → Prop
  | .idle | .disconnecting _ => True
  | _ => False

theorem Session.running_of_over {s : Session} (h : s.over) : s.running = false := by
  cases s <;> first | rfl | exact h.elim

/-- The stages before the device information is used, and after the teardown. -/
def Session.unkeyed : Session → Prop
  | .idle | .connecting | .subscribing | .disconnecting _ => True
  | s => s.command? = some .senderDeviceInfo

/-- Who asked for the cancellation the task is about to receive: the innermost deadline
at its await, the deadline of the session, or the caller. -/
inductive Interrupt where
  | deadline
  | session
  | caller
  deriving DecidableEq

/-- When several fire before the task runs, the outermost decides what it sees. -/
def Interrupt.outermost : Option Interrupt → Interrupt → Interrupt
  | some .caller, _ | _, .caller => .caller
  | some .session, _ | _, .session => .session
  | _, .deadline => .deadline

structure World where
  self : TuyaBleClient
  session : Session
  interrupt : Option Interrupt
  futures : List Future
  deriving DecidableEq

def World.new (P : Primitives) (address : String) (credentials : TuyaBleCredentials) : World where
  self := .new P address credentials
  session := .idle
  interrupt := none
  futures := []

/-- Which task runs an `_async_send`; a reply task is named by the number of its frame. -/
inductive Sender where
  | session
  | reply (number : Nat)
  deriving DecidableEq

/-- What the code does at the points the results are about. -/
inductive Obs where
  /-- A frame to send is constructed. -/
  | built (frame : Frame)
  /-- A future is stored in `_pending`. -/
  | registered (number : Nat)
  /-- `_async_send` has encrypted and split its frame. -/
  | sending (sender : Sender) (send : Send)
  /-- `write_gatt_char` is called. -/
  | wrote (sender : Sender) (send : Send) (packet : Bytes)
  /-- `_async_send` has returned. -/
  | sent (sender : Sender) (send : Send)
  /-- `_async_send` is left by an exception or a cancellation. -/
  | aborted (sender : Sender) (send : Send)
  /-- A decoded frame is dispatched. -/
  | received (frame : Frame)
  /-- A frame is made the result of a waiting request. -/
  | completed (number : Nat) (frame : Frame)
  | published (dataPoints : List DataPoint)
  /-- A reply task is created. -/
  | scheduled (reply : Frame)
  /-- `_async_request` returns a reply. -/
  | returned (code : TuyaBleCommandCode) (number : Nat) (reply : Frame)
  /-- `_async_request` is left by an exception. -/
  | raised (number : Nat) (e : PyException)
  | adopted (info : DeviceInfo)
  /-- The teardown has reset the session state. -/
  | reset
  | ended (outcome : Outcome)
  /-- The notification callback raises. -/
  | callbackRaised (e : PyException)
  deriving DecidableEq

/-- What is seen of an `_async_send`. -/
def Obs.ofSend : Obs → Prop
  | .sending .. | .wrote .. | .sent .. | .aborted .. => True
  | _ => False

/-- How the reads have ended. -/
def outcomes (os : List Obs) : List Outcome :=
  os.filterMap fun | .ended outcome => some outcome | _ => none

theorem mem_outcomes {os : List Obs} {outcome : Outcome} :
    outcome ∈ outcomes os ↔ .ended outcome ∈ os := by
  simp only [outcomes, List.mem_filterMap]
  constructor
  · rintro ⟨o, hm, ho⟩
    cases o with
    | ended outcome' => exact Option.some.inj ho ▸ hm
    | _ => cases ho
  · exact fun hm => ⟨_, hm, rfl⟩

end TuyaBle
