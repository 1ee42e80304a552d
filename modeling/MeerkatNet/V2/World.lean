import MeerkatNet.Foundations.Machine
import MeerkatNet.V2.EventLoop

/-!
# The loop and the swarm around it

The loop runs next to a swarm whose open connections, dials in flight and listeners
are kept here as libp2p would report them. The history records every iteration with
what it did; the events, hand-offs and failures of a run are read off the history.
-/

namespace MeerkatNet.V2

open Libp2p KeyedQueues Runs

variable {PeerId : Type}

/-- A listener, the request it was started for and what has become of it. -/
structure Listener (PeerId : Type) where
  owner : ReplyTx
  addr : Multiaddr PeerId
  announced : List (Multiaddr PeerId)
  isOpen : Bool

/-- The swarm: open connections by peer, dials in flight and all listeners started. -/
structure Swarm (PeerId : Type) where
  connections : PeerId → ℕ
  dials : ConnectionId → Option (Dialler PeerId)
  listeners : ListenerId → Option (Listener PeerId)

def Swarm.init : Swarm PeerId := ⟨fun _ => 0, fun _ => none, fun _ => none⟩

def Swarm.updateListener (sw : Swarm PeerId) (l : ListenerId)
    (f : Listener PeerId → Listener PeerId) : Swarm PeerId :=
  { sw with listeners := Function.update sw.listeners l ((sw.listeners l).map f) }

/-- What a reported event says about the swarm. -/
def Swarm.observe [DecidableEq PeerId] (sw : Swarm PeerId) : SwarmEvent PeerId → Swarm PeerId
  | .newListenAddr l address =>
    sw.updateListener l fun li => { li with announced := li.announced ++ [address] }
  | .listenerClosed l => sw.updateListener l fun li => { li with isOpen := false }
  | .connectionEstablished peer c =>
    { sw with
      connections := Function.update sw.connections peer (sw.connections peer + 1)
      dials := Function.update sw.dials c none }
  | .connectionClosed peer _ =>
    { sw with connections := Function.update sw.connections peer (sw.connections peer - 1) }
  | .outgoingConnectionError c _ => { sw with dials := Function.update sw.dials c none }
  | _ => sw

/-- What a call of the loop changes in the swarm. -/
def Swarm.perform (sw : Swarm PeerId) : Effect PeerId → Swarm PeerId
  | .dial who _ (.ok c) => { sw with dials := Function.update sw.dials c (some who) }
  | .listenOn owner addr (.ok l) =>
    { sw with listeners := Function.update sw.listeners l (some ⟨owner, addr, [], true⟩) }
  | _ => sw

def Swarm.react [DecidableEq PeerId] (sw : Swarm PeerId) : Input PeerId → Swarm PeerId
  | .event ev _ => sw.observe ev
  | .command _ _ => sw

structure World (PeerId : Type) where
  loop : LoopState PeerId
  swarm : Swarm PeerId
  history : List (Input PeerId × List (Effect PeerId))

def Input.taken? : Input PeerId → Option MessageId
  | .command (.send id _ _) _ => some id
  | _ => none

def Input.answers : Input PeerId → Answers
  | .command _ answers => answers
  | .event _ answers => answers

/-- The connection attempt that an event ends. -/
def Input.ended? : Input PeerId → Option ConnectionId
  | .event (.connectionEstablished _ c) _ => some c
  | .event (.outgoingConnectionError c _) _ => some c
  | _ => none

/-- The listener that an event reports on. -/
def Input.touched? : Input PeerId → Option ListenerId
  | .event (.newListenAddr l _) _ => some l
  | .event (.listenerClosed l) _ => some l
  | _ => none

/-- The peer that a connection is established with. -/
def Input.established? : Input PeerId → Option PeerId
  | .event (.connectionEstablished peer _) _ => some peer
  | _ => none

def Effect.event? : Effect PeerId → Option NetworkEvent
  | .event e => some e
  | _ => none

def Effect.handOff? : Effect PeerId → Option (HandOff PeerId)
  | .handOff h => some h
  | _ => none

def Effect.failure? : Effect PeerId → Option (MessageId × SendError)
  | .event (.sendFailed msgId error) => some (msgId, error)
  | _ => none

namespace World

def init : World PeerId := ⟨.init, .init, []⟩

def effects (w : World PeerId) : List (Effect PeerId) := w.history.flatMap Prod.snd

/-- The ids that the loop has taken from the command channel, in order. -/
def taken (w : World PeerId) : List MessageId := w.history.filterMap fun step => step.1.taken?

def handOffs (w : World PeerId) : List (HandOff PeerId) := w.effects.filterMap Effect.handOff?

def failures (w : World PeerId) : List (MessageId × SendError) :=
  w.effects.filterMap Effect.failure?

/-- The ids handed to `send_to_peer`, in order. -/
def handedIds (w : World PeerId) : List MessageId := w.handOffs.map HandOff.msgId

/-- The ids of the `SendFailed` events, in order. -/
def failedIds (w : World PeerId) : List MessageId := w.failures.map Prod.fst

variable [DecidableEq PeerId] (F : Formats PeerId) (S : Serde)

def next (w : World PeerId) (i : Input PeerId) : World PeerId :=
  let out := eventLoop F S w.loop i
  ⟨out.1, out.2.foldl Swarm.perform (w.swarm.react i), w.history ++ [(i, out.2)]⟩

/-- The event loop with its swarm, from the empty state. -/
def machine : Machine (World PeerId) (Input PeerId) := ⟨init, next F S⟩

@[simp] theorem machine_init : (machine F S).init = init := rfl

@[simp] theorem machine_next (w : World PeerId) (i : Input PeerId) :
    (machine F S).next w i = w.next F S i := rfl

@[simp] theorem next_loop (w : World PeerId) (i : Input PeerId) :
    (w.next F S i).loop = (eventLoop F S w.loop i).1 := rfl

@[simp] theorem next_swarm (w : World PeerId) (i : Input PeerId) :
    (w.next F S i).swarm =
      (eventLoop F S w.loop i).2.foldl Swarm.perform (w.swarm.react i) := rfl

@[simp] theorem next_effects (w : World PeerId) (i : Input PeerId) :
    (w.next F S i).effects = w.effects ++ (eventLoop F S w.loop i).2 := by
  simp [effects, next]

@[simp] theorem next_taken (w : World PeerId) (i : Input PeerId) :
    (w.next F S i).taken = w.taken ++ i.taken?.toList := by
  cases h : i.taken? <;> simp [taken, next, h]

@[simp] theorem next_handOffs (w : World PeerId) (i : Input PeerId) :
    (w.next F S i).handOffs =
      w.handOffs ++ (eventLoop F S w.loop i).2.filterMap Effect.handOff? := by
  simp [handOffs]

@[simp] theorem next_failures (w : World PeerId) (i : Input PeerId) :
    (w.next F S i).failures =
      w.failures ++ (eventLoop F S w.loop i).2.filterMap Effect.failure? := by
  simp [failures]

@[simp] theorem next_handedIds (w : World PeerId) (i : Input PeerId) :
    (w.next F S i).handedIds = w.handedIds ++
      ((eventLoop F S w.loop i).2.filterMap Effect.handOff?).map HandOff.msgId := by
  simp [handedIds]

@[simp] theorem next_failedIds (w : World PeerId) (i : Input PeerId) :
    (w.next F S i).failedIds = w.failedIds ++
      ((eventLoop F S w.loop i).2.filterMap Effect.failure?).map Prod.fst := by
  simp [failedIds]

/-- Connection and listener ids of the answers are not in use. -/
def FreshAnswers (w : World PeerId) (answers : Answers) : Prop :=
  (match answers.dial with
    | .ok c => (w.swarm.dials c).isNone = true
    | .error _ => True) ∧
  (match answers.listenOn with
    | .ok l => (w.swarm.listeners l).isNone = true
    | .error _ => True)

/-- Only open connections close, and only open listeners announce or close. -/
def PossibleEvent (w : World PeerId) : SwarmEvent PeerId → Prop
  | .connectionClosed peer _ => 0 < w.swarm.connections peer
  | .newListenAddr l _ => (w.swarm.listeners l).any Listener.isOpen = true
  | .listenerClosed l => (w.swarm.listeners l).any Listener.isOpen = true
  | _ => True

/-- The inputs that libp2p can produce in a state. -/
def Legal (w : World PeerId) : Input PeerId → Prop
  | .command _ answers => w.FreshAnswers answers
  | .event ev answers => w.FreshAnswers answers ∧ w.PossibleEvent ev

/-- The connection test answers by the connections that have been reported open. -/
def TruthfulTest (w : World PeerId) : Input PeerId → Prop
  | .command (.send _ addr _) answers =>
    match F.parse addr.text with
    | .error _ => True
    | .ok multiaddr =>
      match extractPeerId multiaddr with
      | none => True
      | some peer => answers.isConnected = decide (0 < w.swarm.connections peer)
  | _ => True

instance (w : World PeerId) (answers : Answers) : Decidable (w.FreshAnswers answers) := by
  unfold FreshAnswers
  cases answers.dial <;> cases answers.listenOn <;> infer_instance

instance (w : World PeerId) (ev : SwarmEvent PeerId) : Decidable (w.PossibleEvent ev) :=
  match ev with
  | .connectionClosed peer _ => inferInstanceAs (Decidable (0 < w.swarm.connections peer))
  | .newListenAddr l _ | .listenerClosed l =>
    inferInstanceAs (Decidable ((w.swarm.listeners l).any Listener.isOpen = true))
  | .expiredListenAddr _ _ | .listenerError _ | .connectionEstablished _ _
  | .outgoingConnectionError _ _ | .relayClient | .relay | .identifyReceived _ | .identifyOther
  | .other => inferInstanceAs (Decidable True)

instance (w : World PeerId) (i : Input PeerId) : Decidable (w.Legal i) :=
  match i with
  | .command _ answers => inferInstanceAs (Decidable (w.FreshAnswers answers))
  | .event ev answers => inferInstanceAs (Decidable (w.FreshAnswers answers ∧ w.PossibleEvent ev))

instance (w : World PeerId) (i : Input PeerId) : Decidable (w.TruthfulTest F i) := by
  unfold TruthfulTest
  split
  · split
    · infer_instance
    · split <;> infer_instance
  · infer_instance

end World
end MeerkatNet.V2
