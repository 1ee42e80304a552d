import MeerkatNet.Foundations.Entries
import MeerkatNet.Ping.Connect
import MeerkatNet.Ping.Exchange

/-!
# The page of the browser client

Any number of calls of `connect_to_server` and `send_ping` are under way on one page.
They share the statics `PEER_ID` and `CONTROL` and nothing else. A call of
`connect_to_server` sets both at once when it succeeds; a call of `send_ping` reads
both at once when it starts.
-/

namespace MeerkatNet.Ping

open Libp2p Runs Entries

variable {PeerId : Type}

/-- Where a call of `send_ping` stands. A control is known by the call that stored it. -/
inductive PingState (PeerId : Type) where
  | refused (error : String)
  | opening (peer : PeerId) (control : ℕ)
  | exchanging (peer : PeerId) (control : ℕ) (session : Session String)

structure PingCall (PeerId : Type) where
  message : String
  state : PingState PeerId

/-- The statics, the calls so far, and the calls of `connect_to_server` that have succeeded, in the
order in which they did. -/
structure Page (PeerId : Type) where
  peerId : Option PeerId
  control : Option ℕ
  connects : List (ConnectCall PeerId)
  pings : List (PingCall PeerId)
  completed : List ℕ

inductive PageInput (PeerId : Type) where
  | connect (serverAddr : String) (dialed : Except String Unit)
  | event (k : ℕ) (e : SwarmEvent PeerId)
  | ping (message : String)
  | openStream (j : ℕ) (opened : Except String Unit)
  | exchange (j : ℕ) (i : SessionInput)

namespace PingCall

/-- What the call returns, once it does. -/
def result (call : PingCall PeerId) : Option (Except String String) :=
  match call.state with
  | .refused error => some (.error error)
  | .exchanging _ _ ⟨_, .returned _ result, _, _, _⟩ => some result
  | _ => none

/-- `open_stream` answers. -/
def openStream (call : PingCall PeerId) (opened : Except String Unit) : PingCall PeerId :=
  match call.state with
  | .opening peer control =>
    match opened with
    | .error e => { call with state := .refused ("Stream error: " ++ e) }
    | .ok () => { call with state := .exchanging peer control (.init ⟨call.message⟩) }
  | _ => call

def exchange (J : SerdeJson) (call : PingCall PeerId) (i : SessionInput) : PingCall PeerId :=
  match call.state with
  | .exchanging peer control session =>
    { call with state := .exchanging peer control (session.next browserClient J i) }
  | _ => call

end PingCall

namespace Page

def init : Page PeerId := ⟨none, none, [], [], []⟩

/-- `send_ping` up to `open_stream`. -/
def sendPing (page : Page PeerId) (message : String) : PingCall PeerId where
  message := message
  state :=
    match page.peerId with
    | none => .refused "Not connected"
    | some peer =>
      match page.control with
      | none => .refused "No control handle"
      | some control => .opening peer control

variable [DecidableEq PeerId] (F : Formats PeerId) (J : SerdeJson)

def next (page : Page PeerId) : PageInput PeerId → Page PeerId
  | .connect serverAddr dialed =>
    { page with connects := page.connects ++ [connectToServer F serverAddr dialed] }
  | .event k e =>
    match page.connects[k]? with
    | some (.waiting remote) =>
      let call := (ConnectCall.waiting remote).event e
      if call = .connected remote then
        { page with peerId := some remote, control := some k,
                    connects := page.connects.set k call, completed := page.completed ++ [k] }
      else { page with connects := page.connects.set k call }
    | _ => page
  | .ping message => { page with pings := page.pings ++ [page.sendPing message] }
  | .openStream j opened => { page with pings := page.pings.modify j (·.openStream opened) }
  | .exchange j i => { page with pings := page.pings.modify j (·.exchange J i) }

def machine : Machine (Page PeerId) (PageInput PeerId) := ⟨init, next F J⟩

/-! ### Which connection a ping uses -/

/-- The statics belong to the call that succeeded last. -/
structure Coherent (page : Page PeerId) : Prop where
  control : page.control = page.completed.getLast?
  peer : ∀ k, page.control = some k →
    ∃ peer, page.peerId = some peer ∧ page.connects[k]? = some (.connected peer)
  disconnected : page.control = none → page.peerId = none
  completed : ∀ k, k ∈ page.completed ↔ ∃ peer, page.connects[k]? = some (.connected peer)
  nodup : page.completed.Nodup

variable {F J}

omit [DecidableEq PeerId] in
theorem coherent_init : (init : Page PeerId).Coherent where
  control := rfl
  peer k h := by simp [init] at h
  disconnected _ := rfl
  completed k := by simp [init]
  nodup := .nil

omit [DecidableEq PeerId] in
/-- The peer and the control of a new ping are those of the call that succeeded last. -/
theorem Coherent.sendPing {page : Page PeerId} (hp : page.Coherent) (message : String) :
    page.completed = [] ∧ page.sendPing message = ⟨message, .refused "Not connected"⟩ ∨
      ∃ k peer, page.completed.getLast? = some k ∧ page.connects[k]? = some (.connected peer) ∧
        page.sendPing message = ⟨message, .opening peer k⟩ := by
  cases hcontrol : page.control with
  | none =>
    refine .inl ⟨?_, ?_⟩
    · rw [hp.control] at hcontrol
      exact List.getLast?_eq_none_iff.mp hcontrol
    · simp [Page.sendPing, hp.disconnected hcontrol]
  | some k =>
    obtain ⟨peer, hpeer, hconnected⟩ := hp.peer k hcontrol
    refine .inr ⟨k, peer, hp.control ▸ hcontrol, hconnected, ?_⟩
    simp [Page.sendPing, hpeer, hcontrol]

omit [DecidableEq PeerId] in
/-- New and undecided calls leave the connected ones as they are. -/
theorem Coherent.connects {page : Page PeerId} (hp : page.Coherent)
    {connects : List (ConnectCall PeerId)}
    (hsame : ∀ (k : ℕ) (peer : PeerId), connects[k]? = some (.connected peer) ↔
      page.connects[k]? = some (.connected peer)) :
    Coherent { page with connects := connects } where
  control := hp.control
  peer k hk := by
    obtain ⟨peer, hpeer, hconnected⟩ := hp.peer k hk
    exact ⟨peer, hpeer, (hsame k peer).mpr hconnected⟩
  disconnected := hp.disconnected
  completed k := by
    simp only [hsame]
    exact hp.completed k
  nodup := hp.nodup

omit [DecidableEq PeerId] in
/-- A call that succeeds. -/
theorem Coherent.succeed {page : Page PeerId} (hp : page.Coherent) {k : ℕ} {remote : PeerId}
    (hk : page.connects[k]? = some (.waiting remote)) :
    Coherent
      { page with peerId := some remote, control := some k,
                  connects := page.connects.set k (.connected remote),
                  completed := page.completed ++ [k] } := by
  have hlt : k < page.connects.length := (List.getElem?_eq_some_iff.mp hk).1
  have hself : (page.connects.set k (.connected remote))[k]? = some (.connected remote) :=
    List.getElem?_set_self hlt
  have hother : ∀ j, j ≠ k →
      (page.connects.set k (.connected remote))[j]? = page.connects[j]? := by
    intro j hj
    exact List.getElem?_set_ne hj.symm
  have hnew : k ∉ page.completed := by
    rw [hp.completed, hk]
    simp
  refine ⟨by simp, ?_, by simp, ?_, ?_⟩
  · rintro j hj
    obtain rfl := Option.some.inj hj
    exact ⟨remote, rfl, hself⟩
  · intro j
    by_cases hj : j = k
    · subst hj
      simp [hself]
    · simp [hother j hj, hj, hp.completed]
  · refine List.nodup_append.mpr ⟨hp.nodup, List.nodup_singleton k, ?_⟩
    rintro a ha b hb rfl
    rw [List.mem_singleton] at hb
    exact hnew (hb ▸ ha)

omit [DecidableEq PeerId] in
/-- Calls of `send_ping` only read the statics. -/
theorem Coherent.pingCalls {page : Page PeerId} (hp : page.Coherent)
    (pings : List (PingCall PeerId)) : Coherent { page with pings := pings } :=
  ⟨hp.control, hp.peer, hp.disconnected, hp.completed, hp.nodup⟩

theorem coherent_next {page : Page PeerId} (hp : page.Coherent) (i : PageInput PeerId) :
    (page.next F J i).Coherent := by
  cases i with
  | connect serverAddr dialed =>
    apply hp.connects
    intro k peer
    have hnew := connectToServer_ne_connected F serverAddr dialed peer
    rw [List.getElem?_append]
    split_ifs with hlt
    · exact Iff.rfl
    · rw [List.getElem?_eq_none (not_lt.mp hlt)]
      rcases hk : k - page.connects.length with _ | _ <;> simp [hnew]
  | event k e =>
    simp only [next]
    split
    · rename_i remote hk
      split_ifs with hcall
      · rw [hcall]
        exact hp.succeed hk
      · apply hp.connects
        intro j peer
        by_cases hj : k = j
        · subst hj
          rw [List.getElem?_set_self (List.getElem?_eq_some_iff.mp hk).1, hk]
          have hundecided : (ConnectCall.waiting remote).event e ≠ .connected peer := by
            intro h
            exact hcall (ConnectCall.event_waiting h ▸ h)
          simp [hundecided]
        · rw [List.getElem?_set_ne hj]
    · exact hp
  | ping message => exact hp.pingCalls _
  | openStream j opened => exact hp.pingCalls _
  | exchange j i => exact hp.pingCalls _

theorem coherent_run (inputs : List (PageInput PeerId)) :
    ((machine F J).run inputs).Coherent := by
  apply (machine F J).run_invariant
  · exact coherent_init
  · intro page i hp
    exact coherent_next hp i

theorem completed_next (page : Page PeerId) (i : PageInput PeerId) :
    page.completed <+: (page.next F J i).completed := by
  cases i with
  | event k e =>
    simp only [next]
    split
    · split_ifs
      · exact List.prefix_append _ _
      · exact List.prefix_rfl
    · exact List.prefix_rfl
  | _ => exact List.prefix_rfl

theorem completed_exec (page : Page PeerId) (inputs : List (PageInput PeerId)) :
    page.completed <+: ((machine F J).exec page inputs).completed := by
  apply (machine F J).exec_invariant (P := fun later => page.completed <+: later.completed)
  · intro later i h
    exact h.trans (completed_next later i)
  · exact List.prefix_rfl

/-- Whatever the calls on a page do meanwhile, a new ping goes to the peer of the call of
`connect_to_server` that succeeded last, over the connection of that call. It is refused for want
of a connection only when no call has succeeded, and never for want of a control. -/
theorem sendPing_latest (inputs more : List (PageInput PeerId)) (message : String) :
    (∀ k, k ∈ ((machine F J).run inputs).completed ↔
      ∃ peer, ((machine F J).run inputs).connects[k]? = some (.connected peer)) ∧
    ((machine F J).run inputs).completed.Nodup ∧
    ((machine F J).run inputs).completed <+: ((machine F J).run (inputs ++ more)).completed ∧
    ((((machine F J).run inputs).completed = [] ∧
        ((machine F J).run inputs).sendPing message = ⟨message, .refused "Not connected"⟩) ∨
      ∃ k peer, ((machine F J).run inputs).completed.getLast? = some k ∧
        ((machine F J).run inputs).connects[k]? = some (.connected peer) ∧
        ((machine F J).run inputs).sendPing message = ⟨message, .opening peer k⟩) := by
  have hrun := coherent_run (F := F) (J := J) inputs
  refine ⟨hrun.completed, hrun.nodup, ?_, hrun.sendPing message⟩
  rw [Machine.run_append]
  exact completed_exec _ more

/-! ### What becomes of a call of `connect_to_server` -/

/-- The event of a step, if it is one of call `k`. -/
def eventOf (k : ℕ) : PageInput PeerId → Option (SwarmEvent PeerId)
  | .event j e => if j = k then some e else none
  | _ => none

def isConnect : PageInput PeerId → Bool
  | .connect _ _ => true
  | _ => false

theorem connect_next {page : Page PeerId} {k : ℕ} {call : ConnectCall PeerId}
    (hk : page.connects[k]? = some call) (i : PageInput PeerId) :
    (page.next F J i).connects[k]? = some ((eventOf k i).elim call call.event) := by
  have hlt : k < page.connects.length := (List.getElem?_eq_some_iff.mp hk).1
  cases i with
  | connect serverAddr dialed =>
    simp only [next, eventOf, Option.elim_none]
    rw [List.getElem?_append_left hlt, hk]
  | event j e =>
    by_cases hj : j = k
    · subst hj
      rcases call with remote | remote | error <;>
        simp only [next, hk, eventOf, if_true, Option.elim_some]
      · split_ifs <;> exact List.getElem?_set_self hlt
      · rw [ConnectCall.event_connected]
      · rw [ConnectCall.event_failed]
    · simp only [next, eventOf, if_neg hj, Option.elim_none]
      split
      · split_ifs <;> rw [List.getElem?_set_ne hj, hk]
      · exact hk
  | _ => exact hk

theorem connect_exec {page : Page PeerId} {k : ℕ} {call : ConnectCall PeerId}
    (hk : page.connects[k]? = some call) (inputs : List (PageInput PeerId)) :
    ((machine F J).exec page inputs).connects[k]? =
      some (call.outcome (inputs.filterMap (eventOf k))) := by
  rw [← ConnectCall.foldl_event]
  induction inputs generalizing page call with
  | nil => exact hk
  | cons i inputs ih =>
    have hnext : ((machine F J).next page i).connects[k]? =
        some ((eventOf k i).elim call call.event) := connect_next hk i
    rw [Machine.exec_cons, ih hnext, List.filterMap_cons]
    cases eventOf k i <;> rfl

theorem length_connects (inputs : List (PageInput PeerId)) :
    ((machine F J).run inputs).connects.length = inputs.countP isConnect := by
  induction inputs using List.reverseRecOn with
  | nil => rfl
  | append_singleton inputs i ih =>
    rw [Machine.run_concat, List.countP_append, ← ih]
    cases i with
    | connect serverAddr dialed => exact List.length_append
    | event k e =>
      simp only [machine, next]
      split
      · split_ifs <;> exact List.length_set
      · rfl
    | _ => rfl

/-- The first event of its own swarm that names its server or reports a failed dial decides a call
of `connect_to_server`, however its steps and those of the other calls are mixed. -/
theorem connect_outcome (before after : List (PageInput PeerId)) (serverAddr : String)
    (dialed : Except String Unit) :
    ((machine F J).run (before ++ .connect serverAddr dialed :: after)).connects[
        before.countP isConnect]? =
      some ((connectToServer F serverAddr dialed).outcome
        (after.filterMap (eventOf (before.countP isConnect)))) := by
  rw [Machine.run_append, Machine.exec_cons]
  apply connect_exec
  rw [← length_connects (F := F) (J := J)]
  exact List.getElem?_concat_length

/-! ### What a ping returns -/

omit [DecidableEq PeerId] in
/-- A ping that has a peer and a control got both from the same successful call. -/
def Fitting (J : SerdeJson) (connects : List (ConnectCall PeerId)) (call : PingCall PeerId) :
    Prop :=
  match call.state with
  | .refused error => error = "Not connected" ∨ ∃ e, error = "Stream error: " ++ e
  | .opening peer control => connects[control]? = some (.connected peer)
  | .exchanging peer control session =>
    connects[control]? = some (.connected peer) ∧ session.Genuine browserClient J ⟨call.message⟩

omit [DecidableEq PeerId] in
theorem Fitting.mono {connects connects' : List (ConnectCall PeerId)} {call : PingCall PeerId}
    (h : Fitting J connects call)
    (hkeep : ∀ (k : ℕ) (peer : PeerId), connects[k]? = some (.connected peer) →
      connects'[k]? = some (.connected peer)) : Fitting J connects' call := by
  unfold Fitting at h ⊢
  split at h
  · exact h
  · exact hkeep _ _ h
  · exact ⟨hkeep _ _ h.1, h.2⟩

omit [DecidableEq PeerId] in
theorem Fitting.openStream (hJ : J.Faithful) {connects : List (ConnectCall PeerId)}
    {call : PingCall PeerId} (h : Fitting J connects call) (opened : Except String Unit) :
    Fitting J connects (call.openStream opened) := by
  rcases hstate : call.state with error | ⟨peer, control⟩ | ⟨peer, control, session⟩
  · simpa [PingCall.openStream, hstate] using h
  · simp only [Fitting, hstate] at h
    rcases opened with e | _
    · simp only [PingCall.openStream, hstate, Fitting]
      exact .inr ⟨e, rfl⟩
    · simp only [PingCall.openStream, hstate, Fitting]
      exact ⟨h, Session.genuine_init hJ _⟩
  · simpa [PingCall.openStream, hstate] using h

omit [DecidableEq PeerId] in
theorem Fitting.exchange (hJ : J.Faithful) {connects : List (ConnectCall PeerId)}
    {call : PingCall PeerId} (h : Fitting J connects call) (i : SessionInput) :
    Fitting J connects (call.exchange J i) := by
  rcases hstate : call.state with error | ⟨peer, control⟩ | ⟨peer, control, session⟩
  · simpa [PingCall.exchange, hstate] using h
  · simpa [PingCall.exchange, hstate] using h
  · simp only [Fitting, hstate] at h
    simp only [PingCall.exchange, hstate, Fitting]
    exact ⟨h.1, h.2.next hJ i⟩

omit [DecidableEq PeerId] in
theorem Coherent.fitting {page : Page PeerId} (hp : page.Coherent) (message : String) :
    Fitting J page.connects (page.sendPing message) := by
  rcases hp.sendPing message with ⟨-, hnew⟩ | ⟨k, peer, -, hconnected, hnew⟩
  · rw [hnew]
    exact .inl rfl
  · rw [hnew]
    exact hconnected

/-- A call that has connected stays so. -/
theorem connected_next {page : Page PeerId} {k : ℕ} {peer : PeerId}
    (hk : page.connects[k]? = some (.connected peer)) (i : PageInput PeerId) :
    (page.next F J i).connects[k]? = some (.connected peer) := by
  rw [connect_next hk i]
  cases eventOf k i with
  | none => rfl
  | some e => exact congrArg some (ConnectCall.event_connected peer e)

/-- Every ping of the page fits, and so do those that a step starts or moves. -/
theorem fitting_next (hJ : J.Faithful) {page : Page PeerId} (hp : page.Coherent)
    (hfit : ∀ call ∈ page.pings, Fitting J page.connects call) (i : PageInput PeerId) :
    ∀ call ∈ (page.next F J i).pings, Fitting J (page.next F J i).connects call := by
  have hpings : ∀ call ∈ (page.next F J i).pings, Fitting J page.connects call := by
    intro call hcall
    cases i with
    | connect serverAddr dialed => exact hfit call hcall
    | event k e =>
      simp only [next] at hcall
      split at hcall
      · split_ifs at hcall
        · exact hfit call hcall
        · exact hfit call hcall
      · exact hfit call hcall
    | ping message =>
      rcases List.mem_append.mp hcall with hcall | hcall
      · exact hfit call hcall
      · obtain rfl := List.mem_singleton.mp hcall
        exact hp.fitting message
    | openStream j opened =>
      rcases mem_of_mem_modify hcall with hcall | ⟨old, hold, rfl⟩
      · exact hfit call hcall
      · exact (hfit old hold).openStream hJ opened
    | exchange j i =>
      rcases mem_of_mem_modify hcall with hcall | ⟨old, hold, rfl⟩
      · exact hfit call hcall
      · exact (hfit old hold).exchange hJ i
  intro call hcall
  exact (hpings call hcall).mono fun k peer hk => connected_next hk i

theorem fitting_run (hJ : J.Faithful) (inputs : List (PageInput PeerId)) :
    ∀ call ∈ ((machine F J).run inputs).pings,
      Fitting J ((machine F J).run inputs).connects call := by
  have hrun := (machine F J).run_invariant
    (P := fun page => page.Coherent ∧ ∀ call ∈ page.pings, Fitting J page.connects call)
    ⟨coherent_init, fun call hcall => by simp [machine, init] at hcall⟩
    (fun page i hp => ⟨coherent_next hp.1 i, fitting_next hJ hp.1 hp.2 i⟩) inputs
  exact hrun.2

/-- A ping that returns a text returns the reply to its own message, from a server that heard it and
finished, over a connection that was established for it. -/
theorem ping_answered (hJ : J.Faithful) (inputs : List (PageInput PeerId)) {call : PingCall PeerId}
    (hcall : call ∈ ((machine F J).run inputs).pings) {text : String}
    (hresult : call.result = some (.ok text)) :
    text = "Pong! You said: " ++ call.message ∧
      ∃ peer control session, call.state = .exchanging peer control session ∧
        ((machine F J).run inputs).connects[control]? = some (.connected peer) ∧
        session.server = .returned (some ⟨call.message⟩) (.ok ()) := by
  have hfit := fitting_run hJ inputs call hcall
  simp only [PingCall.result] at hresult
  split at hresult
  · simp at hresult
  · rename_i peer control ping received result server request response hstate
    obtain rfl := Option.some.inj hresult
    simp only [Fitting, hstate] at hfit
    obtain ⟨hconnected, hgenuine⟩ := hfit
    obtain ⟨rfl, closed, hfinish⟩ := hgenuine.finished rfl
    have htext : text = "Pong! You said: " ++ call.message := (Except.ok.inj hfinish).symm
    exact ⟨htext, peer, control, _, hstate, hconnected, (hgenuine.received rfl).2⟩
  · simp at hresult

/-- A ping that is too early, and one over a connection. -/
def samplePage : List (PageInput String) :=
  [.ping "early", .connect "/dns4/localhost/tcp/9001/ws/p2p/server" (.ok ()), .event 0 .other,
    .event 0 (.connectionEstablished "server"), .ping "hello", .openStream 1 (.ok ())] ++
  (Session.finishing (messageBytes "hello") (messageBytes "Pong! You said: hello")).map
    (.exchange 1)

theorem sendPing_latest_samplePage :
    ∃ k peer, ((machine Formats.plain serdeJson).run samplePage).completed.getLast? = some k ∧
      ((machine Formats.plain serdeJson).run samplePage).connects[k]? = some (.connected peer) ∧
      ((machine Formats.plain serdeJson).run samplePage).sendPing "again" =
        ⟨"again", .opening peer k⟩ := by
  have hlatest := sendPing_latest (F := Formats.plain) (J := serdeJson) samplePage [] "again"
  exact hlatest.2.2.2.resolve_left fun h => absurd h.1 (by decide +kernel)

theorem ping_answered_samplePage :
    ∃ call ∈ ((machine Formats.plain serdeJson).run samplePage).pings,
      call.result = some (.ok "Pong! You said: hello") ∧
      "Pong! You said: hello" = "Pong! You said: " ++ call.message := by
  have hresult : (((machine Formats.plain serdeJson).run samplePage).pings[1]?.bind
      PingCall.result) = some (.ok "Pong! You said: hello") := by decide +kernel
  obtain ⟨call, hcall, hresult⟩ := Option.bind_eq_some_iff.mp hresult
  have hmem := List.mem_of_getElem? hcall
  exact ⟨call, hmem, hresult, (ping_answered serdeJson_faithful samplePage hmem hresult).1⟩

end Page
end MeerkatNet.Ping
