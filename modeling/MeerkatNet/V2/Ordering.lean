import MeerkatNet.Foundations.Picks
import MeerkatNet.V2.Delivery
import MeerkatNet.V2.SendOrder

/-!
# The order of delivery

Each message has its own stream and its own reader, and the readers post in any
order. Messages to a connected peer that are all delivered come out as a permutation
of what was issued, and in the order of issue if no reader gets to the end of its
frame before the readers of all earlier hand-offs.
-/

namespace MeerkatNet.V2

open Libp2p KeyedQueues Runs Framing Picks

variable {PeerId : Type} [DecidableEq PeerId]

def NetworkEvent.msgFrom? (peer : String) : NetworkEvent → Option MeerkatMessage
  | .messageReceived sender msg => if sender = peer then some msg else none
  | _ => none

namespace Pair

variable (F : Formats PeerId) (S : Serde)

/-- The messages of the sends that the sender issued to the receiver, in order. -/
def issuedMsgs (p : Pair PeerId) : List MeerkatMessage := p.a.issuedTo F p.b.actor.localPeerId

/-- The messages from the sender that came out of the receiver's `try_recv_event`, in order. -/
def receivedMsgs (p : Pair PeerId) : List MeerkatMessage :=
  (p.b.posted.take p.b.received).filterMap fun q =>
    q.event.msgFrom? (F.peerText p.a.actor.localPeerId)

/-- As many messages were received as were issued. -/
def Delivered (p : Pair PeerId) : Prop :=
  (p.issuedMsgs F).length ≤ (p.receivedMsgs F).length

/-- Sends to the receiver find it connected. -/
def SendsConnected (p : Pair PeerId) : PairInput PeerId → Prop
  | .sender i => Node.Iterates (World.SendsConnected F p.b.actor.localPeerId) p.a i
  | _ => True

/-- The sender's loop gets what libp2p can answer and report. -/
def LegalSender (p : Pair PeerId) : PairInput PeerId → Prop
  | .sender i => Node.Iterates (fun w j => w.Legal j ∧ w.TruthfulTest F j) p.a i
  | _ => True

/-- The message of the `j`-th hand-off, if that went to the receiver. -/
def msgAt (p : Pair PeerId) (j : ℕ) : Option MeerkatMessage :=
  (p.a.world.handOffs[j]?).bind (HandOff.msgTo? p.b.actor.localPeerId)

/-- The reader of the `j`-th hand-off has finished. -/
def Finished (p : Pair PeerId) (j : ℕ) : Prop :=
  ∃ k < p.b.readers.length, p.source? k = some j ∧
    (p.b.readers[k]?).map Reader.state = some .finished

/-- A reader that has a whole frame. -/
def HasFrame (p : Pair PeerId) (k : ℕ) : Prop :=
  ((p.b.readers[k]?).bind fun r => recvMessage S r.arrived).isSome = true

/-- A reader reads a whole frame only after the readers of all earlier hand-offs to the receiver
have finished. -/
def ReadersInOrder (p : Pair PeerId) : PairInput PeerId → Prop
  | .receiver (.read k) => p.HasFrame S k → ∀ j ∈ p.source? k,
    ∀ j' < j, (p.msgAt j').isSome = true → p.Finished j'
  | _ => True

instance (p : Pair PeerId) (i : PairInput PeerId) : Decidable (p.SendsConnected F i) :=
  match i with
  | .sender i => inferInstanceAs
    (Decidable (Node.Iterates (World.SendsConnected F p.b.actor.localPeerId) p.a i))
  | .receiver _ | .connect _ => inferInstanceAs (Decidable True)

instance (p : Pair PeerId) (i : PairInput PeerId) : Decidable (p.LegalSender F i) :=
  match i with
  | .sender i => inferInstanceAs
    (Decidable (Node.Iterates (fun w j => w.Legal j ∧ w.TruthfulTest F j) p.a i))
  | .receiver _ | .connect _ => inferInstanceAs (Decidable True)

omit [DecidableEq PeerId] in
instance (p : Pair PeerId) (j : ℕ) : Decidable (p.Finished j) := by
  unfold Finished
  infer_instance

instance (p : Pair PeerId) (i : PairInput PeerId) : Decidable (p.ReadersInOrder S i) :=
  match i with
  | .receiver (.read k) => inferInstanceAs (Decidable
    (((p.b.readers[k]?).bind fun r => recvMessage S r.arrived).isSome = true →
      ∀ j ∈ p.source? k, ∀ j' < j, (p.msgAt j').isSome = true → p.Finished j'))
  | .sender _ | .connect _ | .receiver (.command _) | .receiver (.take _)
  | .receiver (.event _ _) | .receiver (.accept _) | .receiver (.arrive _ _)
  | .receiver (.fail _) | .receiver .resume | .receiver .tryRecv | .receiver .stop =>
    inferInstanceAs (Decidable True)

variable {F S}

/-! ### What was received, by hand-offs -/

omit [DecidableEq PeerId] in
theorem Linked.source?_lt {p : Pair PeerId} (hp : p.Linked) {k j : ℕ}
    (hsource : p.source? k = some j) : j < p.a.world.handOffs.length := by
  obtain ⟨h, -, -, hh, -⟩ := hp.reads hsource
  exact (List.getElem?_eq_some_iff.mp hh).1

/-- A reader of a hand-off reads one to the receiver. -/
theorem Linked.isSome_msgAt {p : Pair PeerId} (hp : p.Linked) {k j : ℕ}
    (hsource : p.source? k = some j) : (p.msgAt j).isSome = true := by
  obtain ⟨h, -, -, hh, hpeer, -⟩ := hp.reads hsource
  simp [msgAt, hh, HandOff.msgTo?, hpeer]

/-- An event reports from the sender the message of the hand-off that it was read from, and
otherwise no message from the sender. -/
theorem Sound.msgFrom? {p : Pair PeerId} (hp : p.Sound F S) (hinverts : S.Inverts)
    (hrejects : S.RejectsPrefixes) {q : Posted} (hq : q ∈ p.b.posted) :
    q.event.msgFrom? (F.peerText p.a.actor.localPeerId) = (p.origin q).bind p.msgAt := by
  have hreceived : ∀ msg, q.event = .messageReceived (F.peerText p.a.actor.localPeerId) msg →
      (p.origin q).bind p.msgAt = some msg := by
    intro msg hevent
    obtain ⟨j, h, horigin, hh, hpeer, hmsg⟩ := hp.received hinverts hrejects hq hevent
    simp [horigin, msgAt, hh, HandOff.msgTo?, hpeer, hmsg]
  cases hmsg : q.event.msgFrom? (F.peerText p.a.actor.localPeerId) with
  | some msg =>
    refine (hreceived msg ?_).symm
    unfold NetworkEvent.msgFrom? at hmsg
    split at hmsg
    · rename_i hevent
      simp only [Option.ite_none_right_eq_some, Option.some.injEq] at hmsg
      rw [hevent, hmsg.1, hmsg.2]
    · simp at hmsg
  | none =>
    -- an event with an origin does report a message from the sender
    cases horigin : p.origin q with
    | none => rfl
    | some j =>
      obtain ⟨k, hk, hsource⟩ := origin_eq_some.mp horigin
      obtain ⟨r, msg, -, hr, -, -, hevent⟩ := hp.posts.read k q.event (by rw [← hk]; exact hq)
      obtain ⟨-, r', -, -, -, -, hr', hfrom, -⟩ := hp.linked.reads hsource
      obtain rfl := Option.some.inj (hr.symm.trans hr')
      simp [hevent, hfrom, NetworkEvent.msgFrom?] at hmsg

/-- The hand-offs whose messages were received, in order. -/
def receivedFrom (p : Pair PeerId) : List ℕ :=
  (p.b.posted.take p.b.received).filterMap p.origin

theorem Sound.receivedMsgs {p : Pair PeerId} (hp : p.Sound F S) (hinverts : S.Inverts)
    (hrejects : S.RejectsPrefixes) : p.receivedMsgs F = p.receivedFrom.filterMap p.msgAt := by
  rw [receivedFrom, List.filterMap_filterMap]
  apply List.filterMap_congr
  intro q hq
  exact hp.msgFrom? hinverts hrejects (List.mem_of_mem_take hq)

omit [DecidableEq PeerId] in
theorem Sound.nodup_receivedFrom {p : Pair PeerId} (hp : p.Sound F S) : p.receivedFrom.Nodup := by
  apply List.Nodup.sublist ((List.take_sublist _ _).filterMap _)
  rw [List.Nodup, List.pairwise_filterMap, List.pairwise_iff_getElem]
  rintro i i' hi hi' hlt j hj j' hj' rfl
  have hsame := hp.origin_injective (List.getElem?_eq_getElem hi) (List.getElem?_eq_getElem hi')
    hj hj'
  omega

theorem Sound.mem_receivedFrom {p : Pair PeerId} (hp : p.Sound F S) {j : ℕ}
    (hj : j ∈ p.receivedFrom) : j < p.a.world.handOffs.length ∧ (p.msgAt j).isSome = true := by
  obtain ⟨q, -, horigin⟩ := List.mem_filterMap.mp hj
  obtain ⟨k, -, hsource⟩ := origin_eq_some.mp horigin
  exact ⟨hp.linked.source?_lt hsource, hp.linked.isSome_msgAt hsource⟩

theorem handedTo_eq (p : Pair PeerId) : p.a.world.handedTo p.b.actor.localPeerId =
    (List.range p.a.world.handOffs.length).filterMap p.msgAt :=
  (filterMap_range _ _).symm

/-- If as many messages were received as were issued, then all hand-offs were received and
everything issued was handed off. -/
theorem Sound.all_received {p : Pair PeerId} (hp : p.Sound F S) (hinverts : S.Inverts)
    (hrejects : S.RejectsPrefixes) (hn : p.a.InOrder F p.b.actor.localPeerId)
    (hdelivered : p.Delivered F) :
    p.receivedFrom.Perm (holding p.msgAt p.a.world.handOffs.length) ∧
      (holding p.msgAt p.a.world.handOffs.length).filterMap p.msgAt = p.issuedMsgs F := by
  have hlength : (p.receivedMsgs F).length = p.receivedFrom.length := by
    rw [hp.receivedMsgs hinverts hrejects]
    apply length_filterMap
    intro j hj
    exact (hp.mem_receivedFrom hj).2
  have hhanded : (p.a.world.handedTo p.b.actor.localPeerId).length ≤ p.receivedFrom.length :=
    hlength ▸ hn.handed.length_le.trans hdelivered
  have hperm : p.receivedFrom.Perm (holding p.msgAt p.a.world.handOffs.length) :=
    perm_holding hp.nodup_receivedFrom (fun j hj => (hp.mem_receivedFrom hj).1)
      (fun j hj => (hp.mem_receivedFrom hj).2) (p.handedTo_eq ▸ hhanded)
  refine ⟨hperm, ?_⟩
  have hall : (p.issuedMsgs F).length ≤ (p.a.world.handedTo p.b.actor.localPeerId).length := by
    rw [handedTo_eq, ← filterMap_holding, ← (hperm.filterMap p.msgAt).length_eq,
      ← hp.receivedMsgs hinverts hrejects]
    exact hdelivered
  rw [filterMap_holding, ← handedTo_eq]
  exact hn.handed.eq_of_length_le hall

/-! ### Readers in order -/

omit [DecidableEq PeerId] in
theorem finished_iff {p : Pair PeerId} {j : ℕ} : p.Finished j ↔
    ∃ k r, p.source? k = some j ∧ p.b.readers[k]? = some r ∧ r.state = .finished := by
  constructor
  · rintro ⟨k, -, hsource, hstate⟩
    obtain ⟨r, hr, hdone⟩ := Option.map_eq_some_iff.mp hstate
    exact ⟨k, r, hsource, hr, hdone⟩
  · rintro ⟨k, r, hsource, hr, hdone⟩
    exact ⟨k, (List.getElem?_eq_some_iff.mp hr).1, hsource, by simp [hr, hdone]⟩

omit [DecidableEq PeerId] in
/-- A hand-off has one reader, so it has not finished while that one reads. -/
theorem Linked.not_finished {p : Pair PeerId} (hp : p.Linked) {k j : ℕ} {r : Reader PeerId}
    (hsource : p.source? k = some j) (hr : p.b.readers[k]? = some r)
    (hreading : r.state = .reading) : ¬ p.Finished j := by
  intro hfinished
  obtain ⟨k', r', hsource', hr', hdone⟩ := finished_iff.mp hfinished
  obtain rfl := hp.reader_unique hsource hsource'
  exact Node.reading_ne_finished hr hreading hr' hdone rfl

variable (F S)

@[simp] theorem receiver_next (p : Pair PeerId) (i : PairInput PeerId) :
    (p.next F S i).b.actor.localPeerId = p.b.actor.localPeerId := by
  cases i <;> simp [next, receive]

/-- Earlier hand-offs stay what they were. -/
theorem msgAt_next (p : Pair PeerId) (i : PairInput PeerId) {j : ℕ}
    (hj : j < p.a.world.handOffs.length) : (p.next F S i).msgAt j = p.msgAt j := by
  have hsame : (p.next F S i).a.world.handOffs[j]? = p.a.world.handOffs[j]? := by
    cases i with
    | sender i =>
      rw [List.getElem?_eq_getElem hj]
      exact getElem?_of_isPrefix (Node.handOffs_next F S p.a i) (List.getElem?_eq_getElem hj)
    | receiver i | connect j => rfl
  rw [msgAt, hsame, receiver_next, msgAt]

/-- A step adds a reader that has not read, or moves the readers of the receiver. -/
inductive ReaderStep (p : Pair PeerId) (i : PairInput PeerId) (p' : Pair PeerId) : Prop where
  | added (r : Reader PeerId) (source : Option ℕ) (hreading : r.state = .reading)
      (hreaders : p'.b.readers = p.b.readers ++ [r]) (hlink : p'.link = p.link ++ [source])
  | moved (hlink : p'.link = p.link) (hlength : p'.b.readers.length = p.b.readers.length)
      (hmoves : ∀ k r, p.b.readers[k]? = some r → ∃ r', p'.b.readers[k]? = some r' ∧
        (r.state ≠ .reading → r' = r) ∧
        (r'.state = .finished → r.state = .finished ∨ i = .receiver (.read k) ∧ p.HasFrame S k))

theorem next_readerStep (p : Pair PeerId) (i : PairInput PeerId) :
    p.ReaderStep S i (p.next F S i) := by
  have hreceive : ∀ (i' : NodeInput PeerId) (source : Option ℕ),
      (∀ k, i' = .read k → i = .receiver (.read k)) →
      p.ReaderStep S i (p.receive (p.b.next F S i') source) := by
    intro i' source hread
    rcases Node.readers_next F S p.b i' with ⟨peer, rfl, hreaders⟩ | ⟨hlength, hmoves⟩
    · exact .added _ source rfl hreaders (if_neg (by simp [hreaders]))
    · refine .moved (if_pos hlength) hlength ?_
      intro k r hr
      obtain ⟨r', hr', hmove⟩ := hmoves k r hr
      refine ⟨r', hr', hmove.ended, fun hdone => (hmove.finished hdone).imp_right ?_⟩
      rintro ⟨rfl, hframe⟩
      exact ⟨hread k rfl, by simpa [HasFrame, hr] using hframe⟩
  cases i with
  | sender i => exact .moved rfl rfl fun k r hr => ⟨r, hr, fun _ => rfl, .inl⟩
  | receiver i =>
    apply hreceive i none
    intro k h
    rw [h]
  | connect j =>
    apply hreceive _ (some j)
    intro k h
    simp at h

/-- A step appends events; one that a reader posts is the only one, and the reader was still
reading and had a whole frame. -/
theorem posted_next (p : Pair PeerId) (i : PairInput PeerId) :
    ∃ new, (p.next F S i).b.posted = p.b.posted ++ new ∧
      ((∀ q ∈ new, q.reader = none) ∨ ∃ k r q, i = .receiver (.read k) ∧ new = [q] ∧
        q.reader = some k ∧ p.b.readers[k]? = some r ∧ r.state = .reading ∧ p.HasFrame S k) := by
  cases i with
  | sender i => exact ⟨[], (List.append_nil _).symm, .inl (by simp)⟩
  | receiver i =>
    obtain ⟨new, hposted, hnone | ⟨k, r, q, rfl, hq, hk, hr, hreading, hframe⟩⟩ :=
      Node.posted_next F S p.b i
    · exact ⟨new, hposted, .inl hnone⟩
    · exact ⟨new, hposted, .inr ⟨k, r, q, rfl, hq, hk, hr, hreading, by simpa [HasFrame, hr]⟩⟩
  | connect j =>
    obtain ⟨new, hposted, hnone | ⟨k, r, q, hi, -⟩⟩ :=
      Node.posted_next F S p.b (.accept p.a.actor.localPeerId)
    · exact ⟨new, hposted, .inl hnone⟩
    · simp at hi

variable {F S}

omit [DecidableEq PeerId] in
theorem ReaderStep.source? {p p' : Pair PeerId} {i : PairInput PeerId} (hp : p.Linked)
    (hstep : p.ReaderStep S i p') {k : ℕ} (hk : k < p.b.readers.length) :
    p'.source? k = p.source? k := by
  cases hstep with
  | added r source hreading hreaders hlink =>
    rw [Pair.source?, hlink, List.getElem?_append_left (hp.length ▸ hk), Pair.source?]
  | moved hlink => rw [Pair.source?, hlink, Pair.source?]

omit [DecidableEq PeerId] in
theorem ReaderStep.mono {p p' : Pair PeerId} {i : PairInput PeerId} (hp : p.Linked)
    (hstep : p.ReaderStep S i p') {j : ℕ} (hj : p.Finished j) : p'.Finished j := by
  obtain ⟨k, r, hsource, hr, hdone⟩ := finished_iff.mp hj
  rw [← hstep.source? hp (List.getElem?_eq_some_iff.mp hr).1] at hsource
  refine finished_iff.mpr ⟨k, r, hsource, ?_, hdone⟩
  cases hstep with
  | added r' source hreading hreaders hlink =>
    exact getElem?_of_isPrefix (hreaders ▸ List.prefix_append _ _) hr
  | moved hlink hlength hmoves =>
    obtain ⟨r', hr', hended, -⟩ := hmoves k r hr
    rwa [← hended (by simp [hdone])]

omit [DecidableEq PeerId] in
/-- A reader that has finished had finished before, or has just read a whole frame. -/
theorem ReaderStep.finished {p p' : Pair PeerId} {i : PairInput PeerId} (hp : p.Linked)
    (hstep : p.ReaderStep S i p') {j : ℕ} (hj : p'.Finished j) :
    p.Finished j ∨ ∃ k, i = .receiver (.read k) ∧ p.HasFrame S k ∧ p.source? k = some j := by
  obtain ⟨k, r', hsource, hr', hdone⟩ := finished_iff.mp hj
  have hold : ∀ r, p.b.readers[k]? = some r → p.source? k = some j := by
    intro r hr
    rwa [← hstep.source? hp (List.getElem?_eq_some_iff.mp hr).1]
  cases hstep with
  | added r source hreading hreaders hlink =>
    rw [hreaders, List.getElem?_append] at hr'
    split_ifs at hr' with hk
    · exact .inl (finished_iff.mpr ⟨k, r', hold r' hr', hr', hdone⟩)
    · rw [List.mem_singleton.mp (List.mem_of_getElem? hr'), hreading] at hdone
      simp at hdone
  | moved hlink hlength hmoves =>
    have hk := (List.getElem?_eq_some_iff.mp hr').1
    rw [hlength] at hk
    have hr := List.getElem?_eq_getElem hk
    obtain ⟨r'', hr'', -, hfinished⟩ := hmoves k _ hr
    obtain rfl := Option.some.inj (hr'.symm.trans hr'')
    rcases hfinished hdone with hbefore | ⟨hi, hframe⟩
    · exact .inl (finished_iff.mpr ⟨k, _, hold _ hr, hr, hbefore⟩)
    · exact .inr ⟨k, hi, hframe, hold _ hr⟩

/-- The readers finish, and post, in the order of the hand-offs. -/
structure Ordered (p : Pair PeerId) : Prop where
  closed : ∀ j, p.Finished j → ∀ j' < j, (p.msgAt j').isSome = true → p.Finished j'
  sorted : (p.b.posted.filterMap p.origin).Pairwise (· < ·)

theorem ordered_init (a b : PeerId) (typeA typeB : NodeType) :
    (init a b typeA typeB).Ordered where
  closed _ hj := by
    obtain ⟨k, hk, -⟩ := hj
    simp [init, Node.init] at hk
  sorted := .nil

omit [DecidableEq PeerId] in
theorem Sound.finished_origin {p : Pair PeerId} (hp : p.Sound F S) {q : Posted}
    (hq : q ∈ p.b.posted) {j : ℕ} (horigin : p.origin q = some j) : p.Finished j := by
  obtain ⟨k, hk, hsource⟩ := origin_eq_some.mp horigin
  obtain ⟨r, -, -, hr, hdone, -⟩ := hp.posts.read k q.event (by rw [← hk]; exact hq)
  exact finished_iff.mpr ⟨k, r, hsource, hr, hdone⟩

omit [DecidableEq PeerId] in
/-- The events that are there keep their hand-offs. -/
theorem Sound.origin_next {p p' : Pair PeerId} (hp : p.Sound F S) {i : PairInput PeerId}
    (hstep : p.ReaderStep S i p') {q : Posted} (hq : q ∈ p.b.posted) :
    p'.origin q = p.origin q := by
  cases hk : q.reader with
  | none => simp [origin, hk]
  | some k =>
    obtain ⟨r, -, -, hr, -⟩ := hp.posts.read k q.event (by rw [← hk]; exact hq)
    simp only [origin, hk, Option.bind_some]
    exact hstep.source? hp.linked (List.getElem?_eq_some_iff.mp hr).1

theorem Ordered.sorted_next {p : Pair PeerId} (hp : p.Sound F S) (ho : p.Ordered)
    (i : PairInput PeerId) :
    ((p.next F S i).b.posted.filterMap (p.next F S i).origin).Pairwise (· < ·) := by
  have hstep := next_readerStep F S p i
  obtain ⟨new, hposted, hnew⟩ := posted_next F S p i
  rw [hposted, List.filterMap_append,
    List.filterMap_congr fun q hq => hp.origin_next hstep hq]
  refine List.pairwise_append.mpr ⟨ho.sorted, ?_⟩
  rcases hnew with hnone | ⟨k, r, q, rfl, rfl, hk, hr, hreading, hframe⟩
  · have hnil : new.filterMap (p.next F S i).origin = [] :=
      List.filterMap_eq_nil_iff.mpr fun q hq => by simp [origin, hnone q hq]
    rw [hnil]
    exact ⟨.nil, by simp⟩
  · have horigin : (p.next F S (.receiver (.read k))).origin q = p.source? k := by
      simp only [origin, hk, Option.bind_some]
      exact hstep.source? hp.linked (List.getElem?_eq_some_iff.mp hr).1
    cases hsource : p.source? k with
    | none => simp [horigin, hsource]
    | some j =>
      simp only [List.filterMap_cons, horigin, hsource, List.filterMap_nil, List.mem_singleton,
        forall_eq]
      refine ⟨List.pairwise_singleton _ _, ?_⟩
      intro j' hj'
      obtain ⟨q', hq', horigin'⟩ := List.mem_filterMap.mp hj'
      -- a later hand-off would have waited for this one, which still reads
      have hunread := hp.linked.not_finished hsource hr hreading
      have hfinished := hp.finished_origin hq' horigin'
      rcases lt_trichotomy j' j with hlt | rfl | hlt
      · exact hlt
      · exact absurd hfinished hunread
      · exact absurd (ho.closed j' hfinished j hlt (hp.linked.isSome_msgAt hsource)) hunread

theorem ordered_next {p : Pair PeerId} (hp : p.Sound F S) (ho : p.Ordered)
    {i : PairInput PeerId} (hordered : p.ReadersInOrder S i) : (p.next F S i).Ordered := by
  have hstep := next_readerStep F S p i
  refine ⟨fun j hj j' hlt hmsg => hstep.mono hp.linked ?_, ho.sorted_next hp i⟩
  rcases hstep.finished hp.linked hj with hbefore | ⟨k, rfl, hframe, hsource⟩
  · obtain ⟨k, -, hsource, -⟩ := finished_iff.mp hbefore
    rw [msgAt_next F S p i (hlt.trans (hp.linked.source?_lt hsource))] at hmsg
    exact ho.closed j hbefore j' hlt hmsg
  · rw [msgAt_next F S p _ (hlt.trans (hp.linked.source?_lt hsource))] at hmsg
    exact hordered hframe j hsource j' hlt hmsg

variable (F S)

/-- In a run in which the sends to the receiver find it connected and as many messages are
received as were issued, the messages received are a permutation of those issued; they are in
the same order if the readers read in order. -/
theorem received_perm_issued (hinverts : S.Inverts) (hrejects : S.RejectsPrefixes) {a b : PeerId}
    {typeA typeB : NodeType} {inputs : List (PairInput PeerId)}
    (h : (machine F S a b typeA typeB).Along (fun p i => p.Transport i ∧ p.SendsConnected F i)
      (init a b typeA typeB) inputs)
    (hdelivered : ((machine F S a b typeA typeB).run inputs).Delivered F) :
    let p := (machine F S a b typeA typeB).run inputs
    (p.receivedMsgs F).Perm (p.issuedMsgs F) ∧
      ((machine F S a b typeA typeB).Along (ReadersInOrder S) (init a b typeA typeB) inputs →
        p.receivedMsgs F = p.issuedMsgs F) := by
  have hp : ((machine F S a b typeA typeB).run inputs).Sound F S :=
    h.invariant (P := Sound F S) (sound_init F S a b typeA typeB)
      fun _ _ hp hi => sound_next hp hi.1
  have hn := h.invariant (P := fun p => p.a.InOrder F p.b.actor.localPeerId)
    (Node.inOrder_init F a b typeA) fun p i hn hi => by
      rw [machine_next, receiver_next]
      cases i with
      | sender i => exact Node.inOrder_next S hn hi.2
      | receiver i | connect j => exact hn
  obtain ⟨hperm, hissued⟩ := hp.all_received hinverts hrejects hn hdelivered
  refine ⟨?_, ?_⟩
  · rw [hp.receivedMsgs hinverts hrejects, ← hissued]
    exact hperm.filterMap _
  · intro hordered
    have ho := (h.and hordered).invariant (P := fun p => p.Sound F S ∧ p.Ordered)
      ⟨sound_init F S a b typeA typeB, ordered_init a b typeA typeB⟩
      fun _ _ hp hi => ⟨sound_next hp.1 hi.1.1, ordered_next hp.1 hp.2 hi.2⟩
    have hsorted : ((machine F S a b typeA typeB).run inputs).receivedFrom.Pairwise (· < ·) :=
      ho.2.sorted.sublist ((List.take_sublist _ _).filterMap _)
    rw [hp.receivedMsgs hinverts hrejects, eq_holding hsorted hperm, hissued]

/-- Two messages to a connected peer, whose streams reach their readers like this. -/
def twoPings (arrivals : List (PairInput String)) : List (PairInput String) :=
  sends [.ping "a", .ping "b"] ++ [.connect 0, .connect 1] ++ arrivals ++
    [.receiver .tryRecv, .receiver .tryRecv]

def pingsInOrder : List (PairInput String) :=
  twoPings (arrives 0 (.ping "a") ++ arrives 1 (.ping "b"))

/-- The second stream is read before the first one. -/
def overtakenPing : List (PairInput String) :=
  twoPings (arrives 1 (.ping "b") ++ arrives 0 (.ping "a"))

theorem received_perm_issued_pingsInOrder :
    let p := (machine Formats.plain json "176" "177" .server .server).run pingsInOrder
    p.receivedMsgs Formats.plain = p.issuedMsgs Formats.plain := by
  have hrun : (machine Formats.plain json "176" "177" .server .server).Along
      (fun p i => p.Transport i ∧ p.SendsConnected Formats.plain i)
      (init "176" "177" .server .server) pingsInOrder := by decide +kernel
  have hdelivered : ((machine Formats.plain json "176" "177" .server .server).run
      pingsInOrder).Delivered Formats.plain := by
    unfold Delivered
    decide +kernel
  have hordered : (machine Formats.plain json "176" "177" .server .server).Along
      (ReadersInOrder json) (init "176" "177" .server .server) pingsInOrder := by decide +kernel
  exact (received_perm_issued Formats.plain json json_inverts json_rejectsPrefixes hrun
    hdelivered).2 hordered

/-- The messages come out in the other order, though both are sent to a connected peer and
delivered. -/
theorem not_in_order_overtakenPing :
    let M := machine Formats.plain json "176" "177" .server .server
    M.Along (fun p i => p.Transport i ∧ p.LegalSender Formats.plain i ∧
      p.SendsConnected Formats.plain i) (init "176" "177" .server .server) overtakenPing ∧
    (M.run overtakenPing).Delivered Formats.plain ∧
    (M.run overtakenPing).issuedMsgs Formats.plain = [.ping "a", .ping "b"] ∧
    (M.run overtakenPing).receivedMsgs Formats.plain = [.ping "b", .ping "a"] := by
  unfold Delivered
  decide +kernel

end Pair
end MeerkatNet.V2
