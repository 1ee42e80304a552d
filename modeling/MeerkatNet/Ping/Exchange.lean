import MeerkatNet.Ping.Session

/-!
# What an exchange delivers

However the two tasks and the stream between them take turns, and wherever writes are
cut off or reads end, the server hears nothing but the ping, and a client that reports
success got the reply to its own ping from a server that finished. As long as neither
task has failed, the exchange can still be brought to its end exactly when both texts
have less than 2³² bytes.
-/

namespace MeerkatNet.Ping

open Framing Pipes Runs MeerkatNet.V2

theorem writeFramed_fresh {room : Option ℕ} {error : String} {data : List UInt8}
    {stream : OutStream} {result : Except String Unit}
    (h : writeFramed (freshStream room error) data = (stream, result)) :
    stream.accepted <+: frame data ∧ (result = .ok () ↔ stream.accepted = frame data) := by
  obtain ⟨written, hwritten, haccepted, hall⟩ := writeFramed_spec (freshStream room error) data
  have hsame : stream.accepted = written := by
    rw [h] at haccepted
    exact haccepted
  rw [h] at hall
  rw [hsame]
  exact ⟨hwritten, hall⟩

theorem writeFramed_unlimited (error : String) (data : List UInt8) :
    ∃ stream, writeFramed (freshStream none error) data = (stream, .ok ()) ∧
      stream.accepted = frame data := by
  rcases hw : writeFramed (freshStream none error) data with ⟨stream, result⟩
  have hok := writeFramed_unbounded (freshStream none error) data rfl
  obtain rfl : result = .ok () := by rwa [hw] at hok
  exact ⟨stream, rfl, (writeFramed_fresh hw).2.mp rfl⟩

section Tasks

variable {ρ : Type} {C : Client ρ} {J : SerdeJson} {ping : PingMessage}
  {request response : List UInt8}

theorem Client.sendRequest_spec (hrequest : J.pings.toVec ping = .ok request) {room : Option ℕ}
    {error : String} {client : ClientTask ρ} {bytes : List UInt8}
    (h : C.sendRequest J ping (freshStream room error) = (client, bytes)) :
    bytes <+: frame request ∧
      (client = .waiting ∧ bytes = frame request ∨ ∃ e, client = .returned none (.error e)) := by
  simp only [Client.sendRequest, hrequest] at h
  rcases hw : writeFramed (freshStream room error) request with ⟨stream, e | _⟩
  · rw [hw] at h
    obtain ⟨rfl, rfl⟩ := Prod.mk.inj h
    exact ⟨(writeFramed_fresh hw).1, .inr ⟨_, rfl⟩⟩
  · rw [hw] at h
    obtain ⟨rfl, rfl⟩ := Prod.mk.inj h
    exact ⟨(writeFramed_fresh hw).1, .inl ⟨rfl, (writeFramed_fresh hw).2.mp rfl⟩⟩

theorem Client.sendRequest_unlimited (hrequest : J.pings.toVec ping = .ok request)
    (error : String) :
    C.sendRequest J ping (freshStream none error) = (.waiting, frame request) := by
  obtain ⟨stream, hw, haccepted⟩ := writeFramed_unlimited error request
  simp only [Client.sendRequest, hrequest, hw, haccepted]

/-- What the server does with a beginning of the request. -/
theorem handlePing_spec (hJ : J.Faithful) (hrequest : J.pings.toVec ping = .ok request)
    (hresponse : J.pongs.toVec (reply ping) = .ok response) {arrived : List UInt8}
    (hcut : arrived <+: frame request) {room : Option ℕ} {error : String} {server : ServerTask}
    {bytes : List UInt8}
    (h : handlePing J arrived (freshStream room error) = some (server, bytes)) :
    (∃ e, server = .returned none (.error e) ∧ bytes = []) ∨
      arrived = frame request ∧ request.length < 2 ^ 32 ∧ bytes <+: frame response ∧
        ∃ result, server = .returned (some ping) result ∧
          (result = .ok () ↔ bytes = frame response) := by
  obtain ⟨heard, hread, hserver⟩ := Option.map_eq_some_iff.mp h
  rcases heard with e | heard
  · obtain ⟨rfl, rfl⟩ := Prod.mk.inj hserver
    exact .inl ⟨e, rfl, rfl⟩
  · obtain ⟨rfl, harrived, hlen⟩ :=
      readFramed_of_isPrefix hJ.pings hJ.cutPings hrequest hcut hread
    simp only [hresponse] at hserver
    rcases hw : writeFramed (freshStream room error) response with ⟨stream, result⟩
    rw [hw] at hserver
    obtain ⟨rfl, rfl⟩ := Prod.mk.inj hserver
    obtain ⟨hbytes, hall⟩ := writeFramed_fresh hw
    exact .inr ⟨harrived, hlen, hbytes, result, rfl, hall⟩

theorem handlePing_unlimited (hJ : J.Faithful) (hrequest : J.pings.toVec ping = .ok request)
    (hresponse : J.pongs.toVec (reply ping) = .ok response) (hlen : request.length < 2 ^ 32)
    (error : String) :
    handlePing J (frame request) (freshStream none error) =
      some (.returned (some ping) (.ok ()), frame response) := by
  obtain ⟨stream, hw, haccepted⟩ := writeFramed_unlimited error response
  rw [handlePing, readFramed_frame (hJ.pings.fromSlice hrequest) hlen, Option.map_some]
  simp only [hresponse, hw, haccepted]

theorem Client.receivePong_spec (hJ : J.Faithful)
    (hresponse : J.pongs.toVec (reply ping) = .ok response) {arrived : List UInt8}
    (hcut : arrived <+: frame response) {client : ClientTask ρ}
    (h : C.receivePong J arrived = some client) :
    (∃ e, client = .returned none (.error e)) ∨
      client = .closing (reply ping) ∧ arrived = frame response ∧ response.length < 2 ^ 32 := by
  obtain ⟨received, hread, rfl⟩ := Option.map_eq_some_iff.mp h
  rcases received with e | pong
  · exact .inl ⟨_, rfl⟩
  · obtain ⟨rfl, harrived, hlen⟩ :=
      readFramed_of_isPrefix hJ.pongs hJ.cutPongs hresponse hcut hread
    exact .inr ⟨rfl, harrived, hlen⟩

theorem Client.receivePong_frame (hJ : J.Faithful)
    (hresponse : J.pongs.toVec (reply ping) = .ok response) (hlen : response.length < 2 ^ 32) :
    C.receivePong J (frame response) = some (.closing (reply ping)) := by
  rw [Client.receivePong, readFramed_frame (hJ.pongs.fromSlice hresponse) hlen, Option.map_some]

end Tasks

namespace Session

variable {ρ : Type} {C : Client ρ} {J : SerdeJson} {ping : PingMessage}
  {request response : List UInt8}

/-- What is true of both ends at any time. -/
structure Exchange (C : Client ρ) (ping : PingMessage) (request response : List UInt8)
    (s : Session ρ) : Prop where
  same : s.ping = ping
  asked : s.request.written <+: frame request
  unasked : s.client = .started → s.request.written = []
  sent : s.client = .started ∨ s.client.Failed ∨ s.request.written = frame request
  silent : s.server.heard = none → s.response.written = []
  heard : ∀ p, s.server.heard = some p → p = ping ∧ s.request.written = frame request ∧
    request.length < 2 ^ 32
  answered : s.response.written <+: frame response
  served : s.response.written = frame response ↔ s.server = .returned (some ping) (.ok ())
  succeeded : ∀ heard, s.server = .returned heard (.ok ()) → heard = some ping
  received : ∀ pong, s.client.received = some pong → pong = reply ping ∧
    s.response.written = frame response ∧ response.length < 2 ^ 32
  finished : ∀ received r, s.client = .returned received (.ok r) → received = some (reply ping) ∧
    ∃ closed, C.finish (reply ping) closed = .ok r

theorem frame_ne_nil (data : List UInt8) : frame data ≠ [] := by simp [frame, toBeBytes]

theorem exchange_init : (init ping).Exchange C ping request response where
  same := rfl
  asked := List.nil_prefix
  unasked _ := rfl
  sent := .inl rfl
  silent _ := rfl
  heard p h := by simp [init, ServerTask.heard] at h
  answered := List.nil_prefix
  served := by simp [init, (frame_ne_nil response).symm]
  succeeded heard h := by simp [init] at h
  received pong h := by simp [init, ClientTask.received] at h
  finished received r h := by simp [init] at h

/-- Until the client has asked, nobody has heard anything. -/
theorem Exchange.unheard {s : Session ρ} (hs : s.Exchange C ping request response)
    (hstarted : s.client = .started) : s.server.heard = none := by
  by_contra hsome
  obtain ⟨p, hp⟩ := Option.ne_none_iff_exists'.mp hsome
  have hwritten := (hs.heard p hp).2.1
  rw [hs.unasked hstarted] at hwritten
  exact frame_ne_nil request hwritten.symm

theorem Exchange.asked_all {s : Session ρ} (hs : s.Exchange C ping request response)
    (hstarted : s.client ≠ .started) (hfailed : ¬ s.client.Failed) :
    s.request.written = frame request :=
  (hs.sent.resolve_left hstarted).resolve_left hfailed

/-- A client that goes on without writing anything. -/
theorem Exchange.client {s : Session ρ} (hs : s.Exchange C ping request response)
    {client : ClientTask ρ} (hunasked : client ≠ .started)
    (hsent : client.Failed ∨ s.request.written = frame request)
    (hreceived : ∀ pong, client.received = some pong → pong = reply ping ∧
      s.response.written = frame response ∧ response.length < 2 ^ 32)
    (hfinished : ∀ received r, client = .returned received (.ok r) →
      received = some (reply ping) ∧ ∃ closed, C.finish (reply ping) closed = .ok r) :
    Exchange C ping request response { s with client := client } where
  same := hs.same
  asked := hs.asked
  unasked h := absurd h hunasked
  sent := .inr hsent
  silent := hs.silent
  heard := hs.heard
  answered := hs.answered
  served := hs.served
  succeeded := hs.succeeded
  received := hreceived
  finished := hfinished

/-- A client that fails before it has a pong. -/
theorem Exchange.clientFails {s : Session ρ} (hs : s.Exchange C ping request response)
    (e : String) :
    Exchange C ping request response { s with client := .returned none (.error e) } := by
  refine hs.client (by simp) (.inl ⟨_, e, rfl⟩) ?_ ?_
  · intro pong h
    simp [ClientTask.received] at h
  · intro received r h
    simp at h

theorem Exchange.serverFails {s : Session ρ} (hs : s.Exchange C ping request response)
    (hreading : s.server = .reading) (e : String) :
    Exchange C ping request response { s with server := .returned none (.error e) } where
  same := hs.same
  asked := hs.asked
  unasked := hs.unasked
  sent := hs.sent
  silent _ := hs.silent (by rw [hreading]; rfl)
  heard p h := by simp [ServerTask.heard] at h
  answered := hs.answered
  served := by
    have hsilent := hs.silent (by rw [hreading]; rfl)
    simp [hsilent, (frame_ne_nil response).symm]
  succeeded heard h := by simp at h
  received := hs.received
  finished := hs.finished

theorem Exchange.requested {s : Session ρ} (hs : s.Exchange C ping request response)
    (hstarted : s.client = .started) {client : ClientTask ρ} {bytes : List UInt8}
    (hbytes : bytes <+: frame request)
    (hclient : client = .waiting ∧ bytes = frame request ∨
      ∃ e, client = .returned none (.error e)) :
    Exchange C ping request response
      { s with client := client, request := s.request.write bytes } := by
  have hwritten : (s.request.write bytes).written = bytes := by
    rw [Pipe.written_write, hs.unasked hstarted, List.nil_append]
  have hasked : (s.request.write bytes).written <+: frame request := by rwa [hwritten]
  refine ⟨hs.same, hasked, ?_, ?_, hs.silent, ?_, hs.answered, hs.served, hs.succeeded,
    ?_, ?_⟩
  · rintro rfl
    simp at hclient
  · rcases hclient with ⟨-, rfl⟩ | ⟨e, rfl⟩
    · exact .inr (.inr hwritten)
    · exact .inr (.inl ⟨_, e, rfl⟩)
  · intro p hp
    have hp' : s.server.heard = some p := hp
    rw [hs.unheard hstarted] at hp'
    simp at hp'
  · intro pong hpong
    rcases hclient with ⟨rfl, -⟩ | ⟨e, rfl⟩ <;> simp [ClientTask.received] at hpong
  · rintro received r rfl
    simp at hclient

theorem Exchange.handled {s : Session ρ} (hs : s.Exchange C ping request response)
    (hreading : s.server = .reading) {bytes : List UInt8} {result : Except String Unit}
    (harrived : s.request.arrived = frame request) (hlen : request.length < 2 ^ 32)
    (hbytes : bytes <+: frame response) (hall : result = .ok () ↔ bytes = frame response) :
    Exchange C ping request response
      { s with server := .returned (some ping) result, response := s.response.write bytes } := by
  have hsilent := hs.silent (by rw [hreading]; rfl)
  have hwritten : (s.response.write bytes).written = bytes := by
    rw [Pipe.written_write, hsilent, List.nil_append]
  have hanswered : (s.response.write bytes).written <+: frame response := by rwa [hwritten]
  refine ⟨hs.same, hs.asked, hs.unasked, hs.sent, ?_, ?_, hanswered, ?_, ?_, ?_, hs.finished⟩
  · intro h
    simp [ServerTask.heard] at h
  · intro p hp
    obtain rfl := Option.some.inj hp
    refine ⟨rfl, hs.asked.eq_of_length_le ?_, hlen⟩
    rw [← harrived]
    exact s.request.arrived_isPrefix.length_le
  · rw [hwritten, ← hall]
    simp
  · intro heard h
    exact (ServerTask.returned.inj h).1.symm
  · -- there was nothing to receive before
    intro pong hpong
    have hnil := (hs.received pong hpong).2.1
    rw [hsilent] at hnil
    exact absurd hnil.symm (frame_ne_nil response)

theorem Exchange.requestArrives {s : Session ρ} (hs : s.Exchange C ping request response) (n : ℕ) :
    Exchange C ping request response { s with request := s.request.arrive n } := by
  refine ⟨hs.same, ?_, ?_, ?_, hs.silent, ?_, hs.answered, hs.served, hs.succeeded, hs.received,
    hs.finished⟩
  all_goals simp only [Pipe.written_arrive]
  · exact hs.asked
  · exact hs.unasked
  · exact hs.sent
  · exact hs.heard

theorem Exchange.responseArrives {s : Session ρ} (hs : s.Exchange C ping request response) (n : ℕ) :
    Exchange C ping request response { s with response := s.response.arrive n } := by
  refine ⟨hs.same, hs.asked, hs.unasked, hs.sent, ?_, hs.heard, ?_, ?_, hs.succeeded, ?_,
    hs.finished⟩
  all_goals simp only [Pipe.written_arrive]
  · exact hs.silent
  · exact hs.answered
  · exact hs.served
  · exact hs.received

theorem exchange_next (hJ : J.Faithful) (hrequest : J.pings.toVec ping = .ok request)
    (hresponse : J.pongs.toVec (reply ping) = .ok response) {s : Session ρ}
    (hs : s.Exchange C ping request response) (i : SessionInput) :
    (s.next C J i).Exchange C ping request response := by
  cases i with
  | request room error =>
    simp only [next]
    split
    · rename_i hstarted
      rw [hs.same]
      rcases hsend : C.sendRequest J ping (freshStream room error) with ⟨client, bytes⟩
      obtain ⟨hbytes, hclient⟩ := Client.sendRequest_spec hrequest hsend
      have hnext := hs.requested hstarted hbytes hclient
      rwa [hs.same] at hnext
    · exact hs
  | requestArrives n => exact hs.requestArrives n
  | serve room error =>
    simp only [next]
    split
    · rename_i hreading
      split
      · exact hs
      · rename_i server bytes hhandle
        have hcut := s.request.arrived_isPrefix.trans hs.asked
        rcases handlePing_spec hJ hrequest hresponse hcut hhandle with
          ⟨e, rfl, rfl⟩ | ⟨harrived, hlen, hbytes, result, rfl, hall⟩
        · have hnext := hs.serverFails hreading e
          simpa [Pipe.write] using hnext
        · exact hs.handled hreading harrived hlen hbytes hall
    · exact hs
  | requestEnds error =>
    simp only [next]
    split
    · rename_i hreading
      exact hs.serverFails hreading error
    · exact hs
  | responseArrives n => exact hs.responseArrives n
  | receive =>
    simp only [next]
    split
    · rename_i hwaiting
      have hsent := hs.asked_all (by simp [hwaiting]) (by simp [hwaiting, ClientTask.Failed])
      rcases hreceive : C.receivePong J s.response.arrived with _ | client
      · rw [Option.getD_none, ← hwaiting]
        exact hs
      · have hcut := s.response.arrived_isPrefix.trans hs.answered
        rcases Client.receivePong_spec hJ hresponse hcut hreceive with
          ⟨e, rfl⟩ | ⟨rfl, harrived, hlen⟩
        · exact hs.clientFails e
        · refine hs.client (by simp) (.inr hsent) ?_ (by simp)
          rintro pong hpong
          obtain rfl := Option.some.inj hpong
          refine ⟨rfl, hs.answered.eq_of_length_le ?_, hlen⟩
          rw [← harrived]
          exact s.response.arrived_isPrefix.length_le
    · exact hs
  | responseEnds error =>
    simp only [next]
    split
    · exact hs.clientFails _
    · exact hs
  | close closed =>
    simp only [next]
    split
    · rename_i pong hclosing
      obtain ⟨rfl, hanswered⟩ := hs.received pong (by rw [hclosing]; rfl)
      have hsent := hs.asked_all (by simp [hclosing]) (by simp [hclosing, ClientTask.Failed])
      refine hs.client (by simp) (.inr hsent) ?_ ?_
      · intro pong hpong
        obtain rfl := Option.some.inj hpong
        exact ⟨rfl, hanswered⟩
      · intro received r hreturned
        obtain ⟨rfl, hfinish⟩ := ClientTask.returned.inj hreturned
        exact ⟨rfl, closed, hfinish⟩
    · exact hs

theorem exchange_run (hJ : J.Faithful) (hrequest : J.pings.toVec ping = .ok request)
    (hresponse : J.pongs.toVec (reply ping) = .ok response) (inputs : List SessionInput) :
    ((machine C J ping).run inputs).Exchange C ping request response := by
  apply (machine C J ping).run_invariant
  · exact exchange_init
  · intro s i hs
    exact exchange_next hJ hrequest hresponse hs i

/-- A session of which `Exchange` holds, with the texts of its ping and the reply. -/
def Genuine (C : Client ρ) (J : SerdeJson) (ping : PingMessage) (s : Session ρ) : Prop :=
  ∃ request response, J.pings.toVec ping = .ok request ∧
    J.pongs.toVec (reply ping) = .ok response ∧ s.Exchange C ping request response

theorem genuine_init (hJ : J.Faithful) (ping : PingMessage) :
    (init ping).Genuine C J ping := by
  obtain ⟨request, hrequest, -⟩ := hJ.pings ping
  obtain ⟨response, hresponse, -⟩ := hJ.pongs (reply ping)
  exact ⟨request, response, hrequest, hresponse, exchange_init⟩

theorem Genuine.next (hJ : J.Faithful) {s : Session ρ} (hs : s.Genuine C J ping)
    (i : SessionInput) : (s.next C J i).Genuine C J ping := by
  obtain ⟨request, response, hrequest, hresponse, hexchange⟩ := hs
  exact ⟨request, response, hrequest, hresponse, exchange_next hJ hrequest hresponse hexchange i⟩

theorem Genuine.received {s : Session ρ} (hs : s.Genuine C J ping) {pong : PongMessage}
    (hpong : s.client.received = some pong) :
    pong = reply ping ∧ s.server = .returned (some ping) (.ok ()) := by
  obtain ⟨request, response, -, -, hexchange⟩ := hs
  obtain ⟨hreply, hwritten, -⟩ := hexchange.received pong hpong
  exact ⟨hreply, hexchange.served.mp hwritten⟩

theorem Genuine.finished {s : Session ρ} (hs : s.Genuine C J ping)
    {received : Option PongMessage} {r : ρ} (hclient : s.client = .returned received (.ok r)) :
    received = some (reply ping) ∧ ∃ closed, C.finish (reply ping) closed = .ok r := by
  obtain ⟨request, response, -, -, hexchange⟩ := hs
  exact hexchange.finished received r hclient

/-- A client that reports success got the reply to its own ping, and so it does whenever it has
read a pong; the server heard the ping and finished. -/
theorem received_reply (hJ : J.Faithful) (ping : PingMessage) (inputs : List SessionInput) :
    (∀ p, ((machine C J ping).run inputs).server.heard = some p → p = ping) ∧
    (∀ pong, ((machine C J ping).run inputs).client.received = some pong →
      pong = reply ping ∧
        ((machine C J ping).run inputs).server = .returned (some ping) (.ok ())) ∧
    (∀ received r, ((machine C J ping).run inputs).client = .returned received (.ok r) →
      received = some (reply ping) ∧ ∃ closed, C.finish (reply ping) closed = .ok r) := by
  have hrun : ((machine C J ping).run inputs).Genuine C J ping := by
    apply (machine C J ping).run_invariant
    · exact genuine_init hJ ping
    · intro s i hs
      exact hs.next hJ i
  refine ⟨?_, fun _ => hrun.received, fun _ _ => hrun.finished⟩
  obtain ⟨request, response, -, -, hexchange⟩ := hrun
  intro p hp
  exact (hexchange.heard p hp).1

/-! ### Bringing an exchange to its end -/

/-- What is left to do for an exchange with these two texts. Steps that are already done change
nothing. -/
def finishing (request response : List UInt8) : List SessionInput :=
  [.request none "", .requestArrives (frame request).length, .serve none "",
    .responseArrives (frame response).length, .receive, .close (.ok ())]

theorem Exchange.asks (hrequest : J.pings.toVec ping = .ok request) {s : Session ρ}
    (hs : s.Exchange C ping request response) (hunbroken : s.Unbroken) :
    (s.next C J (.request none "")).Unbroken ∧
      (s.next C J (.request none "")).request.written = frame request := by
  simp only [next]
  split
  · rename_i hstarted
    rw [hs.same, Client.sendRequest_unlimited hrequest]
    refine ⟨⟨?_, hunbroken.2⟩, ?_⟩
    · simp [ClientTask.Failed]
    · simp [hs.unasked hstarted]
  · rename_i hstarted
    exact ⟨hunbroken, hs.asked_all hstarted hunbroken.1⟩

theorem Exchange.serves (hJ : J.Faithful) (hrequest : J.pings.toVec ping = .ok request)
    (hresponse : J.pongs.toVec (reply ping) = .ok response) (hlen : request.length < 2 ^ 32)
    {s : Session ρ} (hs : s.Exchange C ping request response) (hunbroken : s.Unbroken)
    (harrived : s.request.arrived = frame request) :
    (s.next C J (.serve none "")).Unbroken ∧
      (s.next C J (.serve none "")).server = .returned (some ping) (.ok ()) := by
  simp only [next]
  split
  · rw [harrived, handlePing_unlimited hJ hrequest hresponse hlen]
    exact ⟨⟨hunbroken.1, by simp [ServerTask.Failed]⟩, rfl⟩
  · rename_i hreading
    refine ⟨hunbroken, ?_⟩
    cases hserver : s.server with
    | reading => exact absurd hserver hreading
    | returned heard result =>
      cases result with
      | error e => exact absurd ⟨heard, e, hserver⟩ hunbroken.2
      | ok _ => rw [hs.succeeded heard hserver]

theorem Exchange.receives (hJ : J.Faithful) (hresponse : J.pongs.toVec (reply ping) = .ok response)
    (hlen : response.length < 2 ^ 32) {s : Session ρ} (hs : s.Exchange C ping request response)
    (hunbroken : s.Unbroken) (hstarted : s.client ≠ .started)
    (harrived : s.response.arrived = frame response) :
    (s.next C J .receive).Unbroken ∧
      (s.next C J .receive).client.received = some (reply ping) := by
  simp only [next]
  split
  · rw [harrived, Client.receivePong_frame hJ hresponse hlen, Option.getD_some]
    exact ⟨⟨by simp [ClientTask.Failed], hunbroken.2⟩, rfl⟩
  · rename_i hwaiting
    refine ⟨hunbroken, ?_⟩
    cases hclient : s.client with
    | started => exact absurd hclient hstarted
    | waiting => exact absurd hclient hwaiting
    | closing pong =>
      obtain ⟨rfl, -⟩ := hs.received pong (by rw [hclient]; rfl)
      rfl
    | returned received result =>
      cases result with
      | error e => exact absurd ⟨received, e, hclient⟩ hunbroken.1
      | ok r => exact (hs.finished received r hclient).1

theorem Exchange.closes {s : Session ρ} (hs : s.Exchange C ping request response)
    (hunbroken : s.Unbroken) (hreceived : s.client.received = some (reply ping)) :
    (s.next C J (.close (.ok ()))).Completed := by
  cases hclient : s.client with
  | started => simp [hclient, ClientTask.received] at hreceived
  | waiting => simp [hclient, ClientTask.received] at hreceived
  | closing pong =>
    simp only [hclient, ClientTask.received, Option.some.injEq] at hreceived
    obtain ⟨r, hr⟩ := C.finish_closed pong
    refine ⟨r, ?_⟩
    simp only [next, hclient]
    rw [hr, hreceived, hs.same]
  | returned received result =>
    cases result with
    | error e => exact absurd ⟨received, e, hclient⟩ hunbroken.1
    | ok r =>
      refine ⟨r, ?_⟩
      simp only [next, hclient]
      rw [(hs.finished received r hclient).1, hs.same]

theorem Exchange.finishes (hJ : J.Faithful) (hrequest : J.pings.toVec ping = .ok request)
    (hresponse : J.pongs.toVec (reply ping) = .ok response) (hlen : request.length < 2 ^ 32)
    (hlen' : response.length < 2 ^ 32) {s : Session ρ} (hs : s.Exchange C ping request response)
    (hunbroken : s.Unbroken) :
    ((machine C J ping).exec s (finishing request response)).Completed := by
  have hnext : ∀ {s : Session ρ} (i : SessionInput), s.Exchange C ping request response →
      (s.next C J i).Exchange C ping request response :=
    fun i hs => exchange_next hJ hrequest hresponse hs i
  -- the request goes out and arrives
  obtain ⟨hunbroken₁, hwritten⟩ := hs.asks hrequest hunbroken
  have hs₁ := hnext (.request none "") hs
  generalize hstep₁ : s.next C J (.request none "") = s₁ at hunbroken₁ hwritten hs₁
  have hs₂ := hnext (.requestArrives (frame request).length) hs₁
  have harrived : (s₁.request.arrive (frame request).length).arrived = frame request := by
    rw [Pipe.arrived_arrive (by rw [hwritten]), hwritten]
  -- the server answers, and the reply arrives
  obtain ⟨hunbroken₃, hserved⟩ :=
    hs₂.serves hJ hrequest hresponse hlen hunbroken₁ harrived
  have hs₃ := hnext (.serve none "") hs₂
  generalize hstep₃ : (s₁.next C J (.requestArrives (frame request).length)).next C J
    (.serve none "") = s₃ at hunbroken₃ hserved hs₃
  have hs₄ := hnext (.responseArrives (frame response).length) hs₃
  have hanswered := hs₃.served.mpr hserved
  have harrived' : (s₃.response.arrive (frame response).length).arrived = frame response := by
    rw [Pipe.arrived_arrive (by rw [hanswered]), hanswered]
  have hstarted : s₃.client ≠ .started := by
    intro hstarted
    have hunheard := hs₃.unheard hstarted
    simp [hserved, ServerTask.heard] at hunheard
  -- the client reads it and closes the stream
  obtain ⟨hunbroken₅, hreceived⟩ :=
    hs₄.receives hJ hresponse hlen' hunbroken₃ hstarted harrived'
  have hdone := (hnext .receive hs₄).closes (J := J) hunbroken₅ hreceived
  rw [← hstep₃, ← hstep₁] at hdone
  exact hdone

/-- As long as neither task has failed, an exchange can be completed exactly when the JSON of the
ping and of its reply have less than 2³² bytes. -/
theorem can_complete_iff (hJ : J.Faithful) (hrequest : J.pings.toVec ping = .ok request)
    (hresponse : J.pongs.toVec (reply ping) = .ok response) (inputs : List SessionInput)
    (hunbroken : ((machine C J ping).run inputs).Unbroken) :
    (∃ more, ((machine C J ping).run (inputs ++ more)).Completed) ↔
      request.length < 2 ^ 32 ∧ response.length < 2 ^ 32 := by
  constructor
  · rintro ⟨more, r, hdone⟩
    have hrun := exchange_run (C := C) hJ hrequest hresponse (inputs ++ more)
    obtain ⟨-, hwritten, hlen'⟩ := hrun.received _ (by rw [hdone]; rfl)
    have hheard : ((machine C J ping).run (inputs ++ more)).server.heard = some ping := by
      rw [hrun.served.mp hwritten]
      rfl
    exact ⟨(hrun.heard ping hheard).2.2, hlen'⟩
  · rintro ⟨hlen, hlen'⟩
    refine ⟨finishing request response, ?_⟩
    rw [Machine.run_append]
    have hrun := exchange_run (C := C) hJ hrequest hresponse inputs
    exact hrun.finishes hJ hrequest hresponse hlen hlen' hunbroken

/-- The words around the ping take 16 bytes of the reply. -/
theorem json_can_complete_iff (ping : PingMessage) (inputs : List SessionInput)
    (hunbroken : ((machine C serdeJson ping).run inputs).Unbroken) :
    (∃ more, ((machine C serdeJson ping).run (inputs ++ more)).Completed) ↔
      (messageBytes ping.message).length + 16 < 2 ^ 32 := by
  have hreply : (messageBytes (reply ping).message).length =
      (messageBytes ping.message).length + 16 := by
    rw [reply, length_messageBytes_append, Nat.add_comm]
    rfl
  rw [can_complete_iff serdeJson_faithful rfl rfl inputs hunbroken, hreply]
  omega

def hello : PingMessage := ⟨"hello"⟩

theorem received_reply_hello :
    ((machine browserClient serdeJson hello).run
      (finishing (messageBytes "hello") (messageBytes "Pong! You said: hello"))).server =
      .returned (some hello) (.ok ()) :=
  ((received_reply serdeJson_faithful hello _).2.1 (reply hello) (by decide +kernel)).2

theorem can_complete_hello :
    ∃ more,
      ((machine nativeClient serdeJson hello).run ([.request (some 100) ""] ++ more)).Completed :=
  (can_complete_iff serdeJson_faithful rfl rfl _ ⟨by decide +kernel, by decide +kernel⟩).mpr
    ⟨by decide +kernel, by decide +kernel⟩

end Session
end MeerkatNet.Ping
