import TuyaBle.FakeDevice.FakeBleakClient
import TuyaBle.Client.Numbering

/-!
# The client and the device together

A `System` is a client connected to a fake device. The device takes a packet when the client
writes it, and the call ends as the device says; what the device sends is delivered one
packet after another. Which of these happens next is up to the event loop.
-/

namespace TuyaBle

structure System where
  client : World
  device : FakeBleakClient
  /-- How every write has ended, in the order of the calls. -/
  writes : List (Sender × Except PyException Unit)

inductive SystemEvent where
  | startRead
  /-- The session task goes on. -/
  | resume (iv : InitializationVector)
  | fire (i : Interrupt)
  /-- The event loop calls the next of the callbacks the device has scheduled. -/
  | deliver (clock : Clock)
  /-- A reply task starts or goes on. -/
  | reply (number : Nat) (iv : InitializationVector)
  deriving DecidableEq

namespace System

def new (P : Primitives) (address : String) (credentials : TuyaBleCredentials) : System where
  client := (World.new P address credentials).reading
  device := {}
  writes := []

/-- How the last write of a sender has ended. -/
def resultOf (s : System) (sender : Sender) : Except PyException Unit :=
  match (s.writes.filter fun p => p.1 = sender).getLast? with
  | some (_, result) => result
  | none => .ok ()

def lastWriter (s : System) : Option Sender := s.writes.getLast?.map Prod.fst

/-- The link, the only one there is. -/
def link : TuyaBle.Link := 0

/-- What the session task is resumed with: the device connects, notifies and disconnects at
once, and a write ends as it did. -/
def resumption (s : System) : Resumption :=
  match s.client.interrupt, s.client.session with
  | some _, _ => .woken
  | none, .connecting => .connected (.ok link)
  | none, .subscribing => .subscribed (.ok ())
  | none, .writing .. => .written (s.resultOf .session)
  | none, .disconnecting _ => .disconnected (.ok ())
  | none, _ => .woken

/-- The step of a reply task: it starts, or its write ends. -/
def replyEvent (s : System) (number : Nat) (iv : InitializationVector) : Event :=
  match s.client.task? number with
  | some ⟨_, some _⟩ => .replyWritten number (s.resultOf (.reply number))
  | _ => .replyStart number iv

variable (P : Primitives) (D : Peripheral) (random : Nat → InitializationVector)

/-- Hand the device the packets that have been written. -/
def transmit (s : System) : List Obs → Option System
  | [] => some s
  | .wrote sender _ packet :: os =>
    match s.device.writeGattChar P D random packet with
    | none => none
    | some (device, result) =>
      transmit { s with device, writes := s.writes ++ [(sender, result)] } os
  | _ :: os => transmit s os

/-- A step of the client, with its writes. -/
def stepClient (s : System) (e : Event) : Option (System × List Obs) :=
  match s.client.step P e with
  | none => none
  | some (client, os) =>
    match { s with client }.transmit P D random os with
    | none => none
    | some s => some (s, os)

def step (s : System) : SystemEvent → Option (System × List Obs)
  | .startRead => s.stepClient P D random .startRead
  | .resume iv => s.stepClient P D random (.resume s.resumption iv)
  | .fire i => s.stepClient P D random (.fire i)
  | .deliver clock =>
    match s.device.notifications with
    | [] => none
    | packet :: notifications =>
      { s with device := { s.device with notifications } }.stepClient P D random
        (.notify packet clock)
  | .reply number iv => s.stepClient P D random (s.replyEvent number iv)

end System

def system (P : Primitives) (D : Peripheral) (random : Nat → InitializationVector) :
    Machine System SystemEvent Obs where
  step := System.step P D random

end TuyaBle
