import MeerkatNet.Libp2p.Multiaddr

/-!
# How a client gets to its server

The native client takes the last component of the address for its server, the browser
the first peer id. A call of `connect_to_server` then waits on the events of a swarm of
its own; the first event that names its server or reports a failed dial decides it.
-/

namespace MeerkatNet.Ping

open Libp2p

variable {PeerId : Type}

/-- The server of the native client, from the first argument of its command line. -/
def targetPeer (F : Formats PeerId) (arg : Option String) : Except String PeerId :=
  match arg with
  | none => .error "Usage: meerkat-client <server-multiaddr>"
  | some text =>
    match F.parse text with
    | .error e => .error (F.errorText e)
    | .ok address =>
      match address.getLast? with
      | some (.p2p peer) => .ok peer
      | _ => .error "Address must end with /p2p/<peer-id>"

/-- `extract_peer_id` of the browser: the first peer id of an address. -/
def extractPeerId (addr : Multiaddr PeerId) : Option PeerId :=
  addr.findSome? fun
    | .p2p peer => some peer
    | _ => none

/-- What a swarm reports, as far as `connect_to_server` looks at it. -/
inductive SwarmEvent (PeerId : Type) where
  | connectionEstablished (peer : PeerId)
  | outgoingConnectionError (error : String)
  | other
  deriving DecidableEq

/-- A call of `connect_to_server`. -/
inductive ConnectCall (PeerId : Type) where
  | waiting (remote : PeerId)
  | connected (remote : PeerId)
  | failed (error : String)
  deriving DecidableEq

/-- `connect_to_server` up to its event loop, with what `Swarm::dial` answers. -/
def connectToServer (F : Formats PeerId) (serverAddr : String) (dialed : Except String Unit) :
    ConnectCall PeerId :=
  match F.parse serverAddr with
  | .error e => .failed ("Invalid address: " ++ F.errorText e)
  | .ok addr =>
    match extractPeerId addr with
    | none => .failed "No peer ID in address"
    | some remote =>
      match dialed with
      | .error e => .failed ("Dial error: " ++ e)
      | .ok () => .waiting remote

/-- On an address that the native client accepts, the browser waits for the same server exactly when
no other peer id stands before it. -/
theorem targets_agree_iff (F : Formats PeerId) {text : String} {addr : Multiaddr PeerId}
    (hparse : F.parse text = .ok addr) {peer : PeerId}
    (htarget : targetPeer F (some text) = .ok peer) :
    connectToServer F text (.ok ()) = .waiting peer ↔
      ∀ other, extractPeerId addr.dropLast = some other → other = peer := by
  simp only [targetPeer, hparse] at htarget
  split at htarget
  · rename_i peer' hlast
    obtain rfl := Except.ok.inj htarget
    have hsplit : addr = addr.dropLast ++ [.p2p peer'] :=
      (List.dropLast_append_getLast? _ hlast).symm
    have hfirst : extractPeerId addr = (extractPeerId addr.dropLast).or (some peer') := by
      conv_lhs => rw [hsplit]
      exact List.findSome?_append
    simp only [connectToServer, hparse, hfirst]
    cases extractPeerId addr.dropLast <;> simp
  · simp at htarget

/-- No call is connected before its event loop. -/
theorem connectToServer_ne_connected (F : Formats PeerId) (serverAddr : String)
    (dialed : Except String Unit) (peer : PeerId) :
    connectToServer F serverAddr dialed ≠ .connected peer := by
  unfold connectToServer
  split
  · simp
  · split
    · simp
    · split <;> simp

namespace ConnectCall

variable [DecidableEq PeerId]

/-- One turn of the event loop. -/
def event (call : ConnectCall PeerId) (e : SwarmEvent PeerId) : ConnectCall PeerId :=
  match call, e with
  | .waiting remote, .connectionEstablished peer =>
    if peer = remote then .connected remote else .waiting remote
  | .waiting _, .outgoingConnectionError error => .failed ("Connection failed: " ++ error)
  | call, _ => call

/-- The events that end the loop of a call that waits for `remote`. -/
def decides (remote : PeerId) : SwarmEvent PeerId → Bool
  | .connectionEstablished peer => peer = remote
  | .outgoingConnectionError _ => true
  | .other => false

/-- What a call makes of the events of its swarm: the first decisive one counts. -/
def outcome (call : ConnectCall PeerId) (events : List (SwarmEvent PeerId)) : ConnectCall PeerId :=
  match call with
  | .waiting remote =>
    match events.find? (decides remote) with
    | some (.connectionEstablished _) => .connected remote
    | some (.outgoingConnectionError error) => .failed ("Connection failed: " ++ error)
    | _ => .waiting remote
  | call => call

@[simp] theorem event_connected (remote : PeerId) (e : SwarmEvent PeerId) :
    (connected remote).event e = .connected remote := by cases e <;> rfl

@[simp] theorem event_failed (error : String) (e : SwarmEvent PeerId) :
    (failed error : ConnectCall PeerId).event e = .failed error := by cases e <;> rfl

/-- A call is only ever connected to the peer it waits for. -/
theorem event_waiting {remote peer : PeerId} {e : SwarmEvent PeerId}
    (h : (waiting remote).event e = .connected peer) : remote = peer := by
  cases e with
  | connectionEstablished peer' =>
    simp only [event] at h
    split_ifs at h
    exact ConnectCall.connected.inj h
  | outgoingConnectionError error => simp [event] at h
  | other => simp [event] at h

theorem foldl_event (call : ConnectCall PeerId) (events : List (SwarmEvent PeerId)) :
    events.foldl event call = call.outcome events := by
  induction events generalizing call with
  | nil => cases call <;> rfl
  | cons e events ih =>
    rw [List.foldl_cons, ih]
    cases call with
    | connected remote => simp [outcome]
    | failed error => simp [outcome]
    | waiting remote =>
      cases e with
      | connectionEstablished peer =>
        by_cases h : peer = remote <;> simp [event, outcome, decides, h]
      | outgoingConnectionError error =>
        have hfirst : (.outgoingConnectionError error :: events).find? (decides remote) =
            some (.outgoingConnectionError error) := List.find?_cons_of_pos rfl
        simp only [event, outcome, hfirst]
      | other => simp [event, outcome, decides]

end ConnectCall

end MeerkatNet.Ping
