import MeerkatNet.Foundations.Machine
import MeerkatNet.Foundations.Pipe
import MeerkatNet.Ping.Messages

/-!
# One ping over one stream

The task `send_ping` of a client and the task `handle_ping` of the server run in any
order over the two directions of a stream, which may cut a write off, hand over any
part of what was written, or end. The two clients differ in how they word their
errors and in what they return.
-/

namespace MeerkatNet.Ping

open Framing Pipes Runs MeerkatNet.V2

variable {ρ : Type}

/-- How a client words its errors, and what it returns for a pong once it has tried to close the
stream. -/
structure Client (ρ : Type) where
  serializeError : String → String
  writeError : String → String
  readError : String → String
  deserializeError : String → String
  finish : PongMessage → Except String Unit → Except String ρ
  finish_closed : ∀ pong, ∃ r, finish pong (.ok ()) = .ok r

/-- `send_ping` of the native client fails when the stream does not close. -/
def nativeClient : Client Unit where
  serializeError := id
  writeError := id
  readError := id
  deserializeError := id
  finish _ closed := closed
  finish_closed _ := ⟨(), rfl⟩

/-- `send_ping` of the browser returns the text of the pong, whether or not the stream closes. -/
def browserClient : Client String where
  serializeError e := "Serialize error: " ++ e
  writeError e := "Write error: " ++ e
  readError e := "Read error: " ++ e
  deserializeError e := "Deserialize error: " ++ e
  finish pong _ := .ok pong.message
  finish_closed pong := ⟨pong.message, rfl⟩

/-- The pong that the server makes for a ping. -/
def reply (ping : PingMessage) : PongMessage := ⟨"Pong! You said: " ++ ping.message⟩

/-- Where `send_ping` stands once its stream is open. A task that has returned keeps the pong that
it logged. -/
inductive ClientTask (ρ : Type) where
  | started
  | waiting
  | closing (pong : PongMessage)
  | returned (received : Option PongMessage) (result : Except String ρ)

/-- Where `handle_ping` stands. A task that has returned keeps the ping that it logged. -/
inductive ServerTask where
  | reading
  | returned (heard : Option PingMessage) (result : Except String Unit)

namespace ClientTask

def received : ClientTask ρ → Option PongMessage
  | .closing pong => some pong
  | .returned received _ => received
  | _ => none

/-- The task has returned an error. -/
def Failed (task : ClientTask ρ) : Prop := ∃ received e, task = .returned received (.error e)

instance (task : ClientTask ρ) : Decidable task.Failed :=
  match task with
  | .returned received (.error e) => isTrue ⟨received, e, rfl⟩
  | .started | .waiting | .closing _ | .returned _ (.ok _) => isFalse (by simp [Failed])

end ClientTask

namespace ServerTask

def heard : ServerTask → Option PingMessage
  | .reading => none
  | .returned heard _ => heard

def Failed (task : ServerTask) : Prop := ∃ heard e, task = .returned heard (.error e)

instance (task : ServerTask) : Decidable task.Failed :=
  match task with
  | .returned heard (.error e) => isTrue ⟨heard, e, rfl⟩
  | .reading | .returned _ (.ok _) => isFalse (by simp [Failed])

end ServerTask

/-- A stream on which nothing was written yet. -/
def freshStream (room : Option ℕ) (error : String) : OutStream := ⟨[], room, error, .ok ()⟩

/-- `send_ping` up to the first byte that it waits for, and the bytes that it got rid of. -/
def Client.sendRequest (C : Client ρ) (J : SerdeJson) (ping : PingMessage) (stream : OutStream) :
    ClientTask ρ × List UInt8 :=
  match J.pings.toVec ping with
  | .error e => (.returned none (.error (C.serializeError e)), stream.accepted)
  | .ok data =>
    match writeFramed stream data with
    | (stream, .error e) => (.returned none (.error (C.writeError e)), stream.accepted)
    | (stream, .ok ()) => (.waiting, stream.accepted)

/-- `send_ping` from its reads to the closing of the stream, once enough bytes have arrived. -/
def Client.receivePong (C : Client ρ) (J : SerdeJson) (arrived : List UInt8) :
    Option (ClientTask ρ) :=
  (readFramed J.pongs arrived).map fun
    | .error e => .returned none (.error (C.deserializeError e))
    | .ok pong => .closing pong

/-- `handle_ping`, once enough bytes have arrived, and the bytes that it got rid of. -/
def handlePing (J : SerdeJson) (arrived : List UInt8) (stream : OutStream) :
    Option (ServerTask × List UInt8) :=
  (readFramed J.pings arrived).map fun
    | .error e => (.returned none (.error e), stream.accepted)
    | .ok ping =>
      match J.pongs.toVec (reply ping) with
      | .error e => (.returned (some ping) (.error e), stream.accepted)
      | .ok data =>
        let (stream, result) := writeFramed stream data
        (.returned (some ping) result, stream.accepted)

/-- A stream of the ping protocol and the tasks at its ends. -/
structure Session (ρ : Type) where
  ping : PingMessage
  client : ClientTask ρ
  server : ServerTask
  request : Pipe UInt8
  response : Pipe UInt8

/-- A poll of one of the tasks, with what its stream answers, or bytes that come through. -/
inductive SessionInput where
  | request (room : Option ℕ) (error : String)
  | requestArrives (n : ℕ)
  | serve (room : Option ℕ) (error : String)
  | requestEnds (error : String)
  | responseArrives (n : ℕ)
  | receive
  | responseEnds (error : String)
  | close (closed : Except String Unit)

namespace Session

def init (ping : PingMessage) : Session ρ := ⟨ping, .started, .reading, .empty, .empty⟩

variable (C : Client ρ) (J : SerdeJson)

def next (s : Session ρ) : SessionInput → Session ρ
  | .request room error =>
    match s.client with
    | .started =>
      let (client, bytes) := C.sendRequest J s.ping (freshStream room error)
      { s with client := client, request := s.request.write bytes }
    | _ => s
  | .requestArrives n => { s with request := s.request.arrive n }
  | .serve room error =>
    match s.server with
    | .reading =>
      match handlePing J s.request.arrived (freshStream room error) with
      | none => s
      | some (server, bytes) =>
        { s with server := server, response := s.response.write bytes }
    | _ => s
  | .requestEnds error =>
    match s.server with
    | .reading => { s with server := .returned none (.error error) }
    | _ => s
  | .responseArrives n => { s with response := s.response.arrive n }
  | .receive =>
    match s.client with
    | .waiting => { s with client := (C.receivePong J s.response.arrived).getD .waiting }
    | _ => s
  | .responseEnds error =>
    match s.client with
    | .waiting => { s with client := .returned none (.error (C.readError error)) }
    | _ => s
  | .close closed =>
    match s.client with
    | .closing pong => { s with client := .returned (some pong) (C.finish pong closed) }
    | _ => s

def machine (ping : PingMessage) : Machine (Session ρ) SessionInput := ⟨init ping, next C J⟩

/-- The client has returned without an error, with the reply to its ping. -/
def Completed (s : Session ρ) : Prop :=
  ∃ r, s.client = .returned (some (reply s.ping)) (.ok r)

/-- Neither task has failed. -/
def Unbroken (s : Session ρ) : Prop := ¬ s.client.Failed ∧ ¬ s.server.Failed

end Session
end MeerkatNet.Ping
